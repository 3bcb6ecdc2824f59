import DocSite.Markdown.Phrase

namespace DocSite.Markdown

def Tag.isInline : Tag → Bool
  | emphasis | strong | strikethrough | link .. | image .. => true
  | _ => false

/-- Every part that has a start and an end has an inline tag, at all depths. -/
inductive Inline.Phrasing : Inline → Prop
  | leaf {part : Inline} : (∀ tag children, part ≠ .wrap tag children) → Phrasing part
  | wrap {tag : Tag} {children : List Inline} : tag.isInline = true →
      (∀ part ∈ children, Phrasing part) → Phrasing (.wrap tag children)

def AllPhrasing (parts : List Inline) : Prop := ∀ part ∈ parts, part.Phrasing

section Lists

variable {part : Inline} {parts rest : List Inline} {mark : Char}

theorem allPhrasing_nil : AllPhrasing [] := List.forall_mem_nil _

theorem AllPhrasing.cons (hpart : part.Phrasing) (h : AllPhrasing parts) :
    AllPhrasing (part :: parts) := List.forall_mem_cons.2 ⟨hpart, h⟩

theorem AllPhrasing.append (h : AllPhrasing parts) (hrest : AllPhrasing rest) :
    AllPhrasing (parts ++ rest) := List.forall_mem_append.2 ⟨h, hrest⟩

theorem AllPhrasing.reverse (h : AllPhrasing parts) : AllPhrasing parts.reverse :=
  fun part hpart => h part (List.mem_reverse.1 hpart)

theorem Inline.phrasing_text (s : List Char) : (Inline.text s).Phrasing :=
  .leaf fun _ _ => Inline.noConfusion

theorem allPhrasing_text (s : List Char) : AllPhrasing [.text s] :=
  .cons (Inline.phrasing_text s) allPhrasing_nil

end Lists

section Runs

variable {part : Inline} {parts inner : List Inline} {mark : Char} {p : Pairing} {r : OpenRun}

theorem wrapMarks_phrasing {n : Nat} (h : AllPhrasing inner) :
    AllPhrasing (wrapMarks mark n inner) := by
  fun_induction wrapMarks mark n inner with
  | case1 inner => exact h
  | case2 inner =>
    refine .cons (.wrap ?_ h) allPhrasing_nil
    split <;> rfl
  | case3 n inner ih =>
    refine ih (.cons (.wrap ?_ h) allPhrasing_nil)
    split <;> rfl

theorem OpenRun.flatten_phrasing (h : AllPhrasing r.content) : AllPhrasing r.flatten :=
  h.append (allPhrasing_text _)

/-- All parts of a phrase whose runs are being paired are phrasing. -/
structure Pairing.Phrasing (p : Pairing) : Prop where
  base : AllPhrasing p.base
  runs : ∀ r ∈ p.runs, AllPhrasing r.content

namespace Pairing.Phrasing

theorem flatten {runs : List OpenRun} (h : ∀ r ∈ runs, AllPhrasing r.content) :
    AllPhrasing (runs.flatMap OpenRun.flatten) := by
  intro part hpart
  obtain ⟨r, hr, hpart⟩ := List.mem_flatMap.1 hpart
  exact OpenRun.flatten_phrasing (h r hr) part hpart

theorem append (h : p.Phrasing) (hparts : AllPhrasing parts) : (p.append parts).Phrasing := by
  unfold Pairing.append
  split
  · rename_i r runs hruns
    obtain ⟨hr, hrest⟩ := List.forall_mem_cons.1 (hruns ▸ h.runs)
    exact ⟨h.base, List.forall_mem_cons.2 ⟨hparts.append hr, hrest⟩⟩
  · exact ⟨hparts.append h.base, h.runs⟩

theorem push (h : p.Phrasing) (hr : AllPhrasing r.content) : (p.push r).Phrasing :=
  ⟨h.base, List.forall_mem_cons.2 ⟨hr, h.runs⟩⟩

theorem splitOpen?_eq {ok : OpenRun → Bool} {floor : Nat} {runs inner outer : List OpenRun}
    (h : splitOpen? ok floor runs = some (inner, r, outer)) : runs = inner ++ r :: outer := by
  induction runs generalizing inner with
  | nil => simp [splitOpen?] at h
  | cons first rest ih =>
    rw [splitOpen?] at h
    split at h
    · contradiction
    split at h
    · obtain ⟨rfl, rfl, rfl⟩ := by simpa using h
      rfl
    · obtain ⟨⟨inner', found, outer'⟩, hsplit, heq⟩ := Option.map_eq_some_iff.1 h
      obtain ⟨rfl, rfl, rfl⟩ := by simpa using heq
      rw [ih hsplit, List.cons_append]

theorem close {length fuel left : Nat} {both : Bool} (h : p.Phrasing) :
    (Pairing.close mark length both fuel left p).2.Phrasing := by
  induction fuel generalizing left p with
  | zero => exact h
  | succ fuel ih =>
    rw [Pairing.close]
    split
    · exact h
    · dsimp only
      split
      · split
        · exact ⟨h.base, h.runs⟩
        · exact h
      · rename_i inner r outer hsplit
        have hruns := h.runs
        rw [splitOpen?_eq hsplit, List.forall_mem_append, List.forall_mem_cons] at hruns
        obtain ⟨hinner, hr, houter⟩ := hruns
        have hwrapped : AllPhrasing (wrapMarks mark (min left r.left)
            (inner.flatMap OpenRun.flatten ++ r.content).reverse) :=
          wrapMarks_phrasing ((flatten hinner).append hr).reverse
        have hrest : Pairing.Phrasing
            { p with runs := outer, tildeFloor := min p.tildeFloor outer.length } :=
          ⟨h.base, houter⟩
        refine ih ?_
        split
        · exact hrest.push hwrapped
        · exact hrest.append hwrapped

theorem step (h : p.Phrasing) (hpart : part.Phrasing) : (p.step part).Phrasing := by
  unfold Pairing.step
  split
  · rename_i mark length opens closes
    have hclosed : (if closes then Pairing.close mark length (opens && closes) (length + 1) length p
        else (length, p)).2.Phrasing := by
      split
      · exact h.close
      · exact h
    dsimp only
    generalize (if closes then Pairing.close mark length (opens && closes) (length + 1) length p
        else (length, p)) = closed at hclosed ⊢
    split
    · exact hclosed
    split
    · exact hclosed.push allPhrasing_nil
    · exact hclosed.append (allPhrasing_text _)
  · exact h.append (.cons hpart allPhrasing_nil)

theorem finish (h : p.Phrasing) : AllPhrasing p.finish :=
  ((flatten h.runs).append h.base).reverse

end Pairing.Phrasing

theorem keepLastBackslash_phrasing (h : AllPhrasing parts) :
    AllPhrasing (keepLastBackslash parts) := by
  unfold keepLastBackslash
  split
  · exact AllPhrasing.append (fun part hpart => h part (List.dropLast_subset parts hpart))
      (allPhrasing_text _)
  · exact h

theorem emphasize_phrasing (h : AllPhrasing parts) : AllPhrasing (emphasize parts) := by
  have hfold : ∀ (parts : List Inline) (p : Pairing), AllPhrasing parts → p.Phrasing →
      (parts.foldl Pairing.step p).Phrasing := by
    intro parts
    induction parts with
    | nil => exact fun _ _ hp => hp
    | cons part parts ih =>
      intro p hparts hp
      obtain ⟨hpart, hparts⟩ := List.forall_mem_cons.1 hparts
      exact ih _ hparts (hp.step hpart)
  exact (hfold _ {} (keepLastBackslash_phrasing h) ⟨allPhrasing_nil, by simp⟩).finish

end Runs

namespace Phrase

structure Reading.Phrasing (r : Reading) : Prop where
  parts : AllPhrasing r.parts
  openers : ∀ o ∈ r.openers, AllPhrasing o.before

namespace Reading.Phrasing

variable {r : Reading} {part : Inline} {target : LinkTarget}

theorem add (h : r.Phrasing) (hpart : part.Phrasing) : (r.add part).Phrasing :=
  ⟨h.parts.cons hpart, h.openers⟩

theorem openBracket (h : r.Phrasing) (image : Bool) (start : Nat) :
    (r.openBracket image start).Phrasing :=
  ⟨allPhrasing_nil, List.forall_mem_cons.2 ⟨h.parts, h.openers⟩⟩

theorem giveUp (h : r.Phrasing) : r.giveUp.Phrasing := by
  unfold Reading.giveUp
  split
  · rename_i o openers hopeners
    obtain ⟨ho, hrest⟩ := List.forall_mem_cons.1 (hopeners ▸ h.openers)
    exact ⟨h.parts.append (.cons (Inline.phrasing_text _) ho), hrest⟩
  · exact h

theorem makeLink (h : r.Phrasing) : (r.makeLink target).Phrasing := by
  unfold Reading.makeLink
  split
  · rename_i o openers hopeners
    obtain ⟨ho, hrest⟩ := List.forall_mem_cons.1 (hopeners ▸ h.openers)
    refine ⟨.cons (.wrap ?_ (emphasize_phrasing h.parts.reverse)) ho, ?_⟩
    · split <;> rfl
    · dsimp only
      split
      · exact hrest
      · intro o' ho'
        obtain ⟨o, ho, rfl⟩ := List.mem_map.1 ho'
        exact hrest o ho
  · exact h

theorem finish (h : r.Phrasing) : AllPhrasing r.finish := by
  have hfold : ∀ (openers : List Opener) (r : Reading), r.Phrasing →
      (openers.foldl (fun r _ => r.giveUp) r).Phrasing := by
    intro openers
    induction openers with
    | nil => exact fun _ hr => hr
    | cons o openers ih => exact fun r hr => ih _ hr.giveUp
  exact emphasize_phrasing (hfold _ r h).parts.reverse

end Reading.Phrasing

variable {p : Phrase} {definitions : List Definition} {r : Reading} {t : Token}
variable {tokens : List Token}

theorem closeBracket_phrasing {viable : Bool} (h : r.Phrasing) :
    (p.closeBracket definitions r t viable tokens).1.Phrasing := by
  have hfail := h.giveUp.add (Inline.phrasing_text [']'])
  unfold closeBracket
  split
  · exact h.add (Inline.phrasing_text _)
  · dsimp only
    split
    · exact hfail
    split
    · exact h.makeLink
    split
    · exact h.makeLink
    · exact hfail

theorem angle_phrasing : (p.angle t tokens).1.Phrasing := by
  unfold angle
  dsimp only
  split
  · exact .wrap rfl (allPhrasing_text _)
  · exact .wrap rfl (allPhrasing_text _)
  · exact .leaf fun _ _ => Inline.noConfusion
  · exact Inline.phrasing_text _

theorem ticks_phrasing {count : Nat} {escaped : Bool} (h : r.Phrasing) :
    (p.ticks r t count escaped tokens).1.Phrasing := by
  have hcode : ∀ s, (Inline.code s).Phrasing := fun s => .leaf fun _ _ => Inline.noConfusion
  unfold ticks
  dsimp only
  split
  · exact h.add (Inline.phrasing_text _)
  · split
    · exact (h.add (Inline.phrasing_text _)).add (hcode _)
    · exact h.add (hcode _)

theorem read_phrasing {fuel : Nat} (h : r.Phrasing) :
    (p.read definitions fuel r tokens).Phrasing := by
  induction fuel generalizing r tokens with
  | zero => exact h
  | succ fuel ih =>
    cases tokens with
    | nil => exact h
    | cons t tokens =>
      rw [read]
      dsimp only
      split
      · exact ih (h.add (Inline.phrasing_text _))
      · exact ih (h.add (Inline.phrasing_text _))
      · exact ih (h.add (.leaf fun _ _ => Inline.noConfusion))
      · exact ih (ticks_phrasing h)
      · exact ih (h.add angle_phrasing)
      · exact ih (h.openBracket _ _)
      · exact ih (h.openBracket _ _)
      · exact ih (closeBracket_phrasing h)
      · exact ih (h.add (.leaf fun _ _ => Inline.noConfusion))
      · exact ih (h.add (.leaf fun _ _ => Inline.noConfusion))

/-- Whatever its tokens are, a phrase nests inline parts only. -/
theorem parts_phrasing (p : Phrase) (definitions : List Definition) :
    AllPhrasing (p.parts definitions) :=
  (read_phrasing ⟨allPhrasing_nil, by simp⟩).finish

end Phrase
end DocSite.Markdown
