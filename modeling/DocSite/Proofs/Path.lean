import DocSite.Path
import DocSite.Proofs.Text.Cut

namespace DocSite.Path

variable {p q : Path}

theorem no_separator_of_mem_segments {seg : String} (h : seg ∈ p.segments) :
    '/' ∉ seg.toList := by
  obtain ⟨part, hpart, rfl⟩ := List.mem_map.1 h
  rw [String.toList_ofList]
  exact Text.not_mem_of_mem_splitAll hpart

theorem segments_ne_nil (p : Path) : p.segments ≠ [] := by
  simpa [segments] using Text.splitAll_ne_nil '/' p.text.toList

theorem segments_inj : p.segments = q.segments ↔ p = q := by
  constructor
  · intro h
    have hparts := congrArg (List.map String.toList) h
    simp only [segments, List.map_map, Function.comp_def, String.toList_ofList, List.map_id']
      at hparts
    have htext := congrArg (Text.joinWith ['/']) hparts
    rw [Text.joinWith_splitAll, Text.joinWith_splitAll] at htext
    exact text_inj.1 (String.toList_injective htext)
  · rintro rfl
    rfl

theorem segments_of_no_separator {name : String} (h : '/' ∉ name.toList) :
    segments ⟨name⟩ = [name] := by
  simp [segments, Text.splitAll_of_not_mem h]

theorem isAbsolute_eq_false_of_no_separator {name : String} (h : '/' ∉ name.toList) :
    isAbsolute ⟨name⟩ = false := by
  cases hn : name.toList with
  | nil => simp [isAbsolute, hn]
  | cons c cs =>
    rw [hn, List.mem_cons, not_or] at h
    simpa [isAbsolute, hn] using Ne.symm h.1

theorem join_of_isAbsolute (hq : q.isAbsolute = true) : p.join q = q := by
  simp [join, hq]

theorem join_of_relative (hp : p.text ≠ "") (hq : q.isAbsolute = false) :
    p.join q = if p.text.toList.getLast? = some '/' then ⟨p.text ++ q.text⟩
      else ⟨p.text ++ "/" ++ q.text⟩ := by
  simp [join, hq, hp]

theorem join_ne_empty (hp : p.text ≠ "") (hq : q.isAbsolute = false) :
    (p.join q).text ≠ "" := by
  rw [join_of_relative hp hq]
  split <;> simp [hp]

theorem isAbsolute_join (hp : p.text ≠ "") (hq : q.isAbsolute = false) :
    (p.join q).isAbsolute = p.isAbsolute := by
  obtain ⟨c, cs, hcs⟩ := List.exists_cons_of_ne_nil (by simpa using hp : p.text.toList ≠ [])
  rw [join_of_relative hp hq]
  split <;> simp [isAbsolute, hcs]

/-- The segments of a joined path begin with those of the first path, up to an empty last one. -/
theorem segments_join (hp : p.text ≠ "") (hq : q.isAbsolute = false) :
    (p.join q).segments = p.segments ++ q.segments ∨
      ∃ segs, p.segments = segs ++ [""] ∧ (p.join q).segments = segs ++ q.segments := by
  rw [join_of_relative hp hq]
  split
  · rename_i hlast
    right
    obtain ⟨start, hstart⟩ := List.getLast?_eq_some_iff.1 hlast
    refine ⟨(Text.splitAll '/' start).map String.ofList, ?_, ?_⟩
    · simp [segments, hstart, Text.splitAll_append_cons, Text.splitAll]
    · simp [segments, hstart, Text.splitAll_append_cons]
  · left
    simp [segments, Text.splitAll_append_cons]

/-- A joined path ends as its second path does. -/
theorem getLast?_join (hp : p.text ≠ "") (hq : q.text ≠ "") (hqrel : q.isAbsolute = false) :
    (p.join q).text.toList.getLast? = q.text.toList.getLast? := by
  obtain ⟨first, c, hc⟩ : ∃ first c, q.text.toList = first ++ [c] :=
    ⟨_, _, (List.dropLast_concat_getLast (by simpa using hq : q.text.toList ≠ [])).symm⟩
  rw [join_of_relative hp hqrel]
  split <;> simp [hc, ← List.append_assoc]

theorem join_assoc {r : Path} (hp : p.text ≠ "") (hq : q.text ≠ "") (hqrel : q.isAbsolute = false)
    (hrrel : r.isAbsolute = false) : (p.join q).join r = p.join (q.join r) := by
  have hqr : (q.join r).isAbsolute = false := by rw [isAbsolute_join hq hrrel, hqrel]
  rw [join_of_relative (join_ne_empty hp hqrel) hrrel, getLast?_join hp hq hqrel,
    join_of_relative hp hqr, join_of_relative hp hqrel, join_of_relative hq hrrel]
  by_cases hpsep : p.text.toList.getLast? = some '/'
  · by_cases hqsep : q.text.toList.getLast? = some '/' <;>
      simp [hpsep, hqsep, String.append_assoc]
  · by_cases hqsep : q.text.toList.getLast? = some '/' <;>
      simp [hpsep, hqsep, String.append_assoc]

/-- Joining the empty path only puts a separator at the end. -/
theorem join_empty_join (hp : p.text ≠ "") (hq : q.isAbsolute = false) :
    (p.join ⟨""⟩).join q = p.join q := by
  have hrel : isAbsolute ⟨""⟩ = false := rfl
  rw [join_of_relative (join_ne_empty hp hrel) hq, join_of_relative hp hrel, join_of_relative hp hq]
  by_cases hlast : p.text.toList.getLast? = some '/' <;> simp [hlast]

/-- Below one path, relative paths stay apart. -/
theorem join_inj {r : Path} (hp : p.text ≠ "") (hq : q.isAbsolute = false)
    (hr : r.isAbsolute = false) : p.join q = p.join r ↔ q = r := by
  rw [join_of_relative hp hq, join_of_relative hp hr, ← text_inj, ← text_inj (p := q)]
  split <;> simp

theorem join_ne_right (hp : p.text ≠ "") (hq : q.isAbsolute = false) : p.join q ≠ q := by
  intro h
  have hlen : (p.join q).text.length = q.text.length := by rw [h]
  have hpos : p.text.length ≠ 0 := by simpa using hp
  rw [join_of_relative hp hq] at hlen
  split at hlen
  · rw [String.length_append] at hlen
    omega
  · rw [String.length_append, String.length_append] at hlen
    omega

/-- What no parent removes is the start of the text: a separator if the text starts with one. -/
theorem splitHead_cases (cs : List Char) : cs = (splitHead cs).1 ++ (splitHead cs).2 ∧
    (((splitHead cs).1 = [] ∧ cs.head? ≠ some '/') ∨ (splitHead cs).1 = ['/'] ∨
      ((splitHead cs).1 = ['.'] ∧ ∃ rest, Text.splitAll '/' (splitHead cs).2 = [] :: rest)) := by
  unfold splitHead
  split
  · simp
  · exact ⟨rfl, .inr (.inr ⟨rfl, [], rfl⟩)⟩
  · exact ⟨rfl, .inr (.inr ⟨rfl, _, Text.splitAll_cons_self ..⟩)⟩
  · rename_i hroot _ _
    refine ⟨rfl, .inl ⟨rfl, fun hhead => ?_⟩⟩
    obtain ⟨rest, rfl⟩ := List.head?_eq_some_iff.1 hhead
    exact hroot rest rfl

/-- A parent keeps the head of the path and the first parts of what follows. Among the others is one
that is read as a component. -/
theorem exists_kept_of_parent (h : p.parent = some q) : q.text = "" ∨
    ∃ kept more, kept ++ more = Text.splitAll '/' (splitHead p.text.toList).2 ∧
      (∃ part ∈ more, isSkipped part = false) ∧
      q.text.toList = (splitHead p.text.toList).1 ++ Text.joinWith ['/'] kept := by
  unfold parent at h
  dsimp only at h
  split at h
  case h_2 =>
    split at h
    · exact .inl (Option.some.inj h ▸ rfl)
    · simp at h
  rename_i part before hdrop
  have hpart : isSkipped part = false := by
    have hhead := List.head?_dropWhile_not isSkipped
      (Text.splitAll '/' (splitHead p.text.toList).2).reverse
    simpa [hdrop] using hhead
  -- read backwards: what is skipped, the last component, what is skipped before it, what is kept
  have hback := List.takeWhile_append_dropWhile (p := isSkipped)
    (l := (Text.splitAll '/' (splitHead p.text.toList).2).reverse)
  rw [hdrop, ← List.takeWhile_append_dropWhile (p := isSkipped) (l := before)] at hback
  have hparts := congrArg List.reverse hback
  simp only [List.reverse_append, List.reverse_cons, List.reverse_reverse, List.append_assoc]
    at hparts
  refine .inr ⟨(before.dropWhile isSkipped).reverse, _, hparts, ⟨part, by simp, hpart⟩, ?_⟩
  rw [← Option.some.inj h, String.toList_ofList]

/-- The segments of a parent come first among those of the path, and one of the others names
something, unless nothing or just the root is left. -/
theorem parent_cases (h : p.parent = some q) : q.text = "" ∨ q.text = "/" ∨
    (∃ more, p.segments = q.segments ++ more ∧ ∃ seg ∈ more, seg ≠ "") ∧
      q.isAbsolute = p.isAbsolute := by
  obtain hempty | ⟨kept, more, hkept, ⟨part, hpart, hskip⟩, hq⟩ := exists_kept_of_parent h
  · exact .inl hempty
  have hname : part ≠ [] := by
    rintro rfl
    simp [isSkipped] at hskip
  obtain ⟨hp, hhead⟩ := splitHead_cases p.text.toList
  generalize splitHead p.text.toList = cut at hkept hq hp hhead
  obtain ⟨head, body⟩ := cut
  dsimp only at hkept hq hp hhead
  cases kept with
  | nil =>
    rw [Text.joinWith, List.append_nil] at hq
    rcases hhead with ⟨rfl, -⟩ | rfl | ⟨rfl, rest, hrest⟩
    · exact .inl (String.toList_injective hq)
    · exact .inr (.inl (String.toList_injective hq))
    · refine .inr (.inr ⟨⟨rest.map String.ofList, ?_, String.ofList part, ?_, ?_⟩, ?_⟩)
      · have hone : Text.splitAll '/' ['.'] = [] ++ [['.']] := rfl
        have hparts : Text.splitAll '/' (['.'] ++ body) = ['.'] :: rest :=
          Text.splitAll_append hone hrest
        rw [segments, segments, hq, hp, hone, hparts]
        rfl
      · rw [List.nil_append, hrest] at hkept
        rw [hkept, List.mem_cons] at hpart
        exact List.mem_map_of_mem (hpart.resolve_left hname)
      · simpa using hname
      · simp [isAbsolute, hq, hp]
  | cons first kept =>
    rw [List.cons_append] at hkept
    have hjoined : Text.splitAll '/' (Text.joinWith ['/'] (first :: kept)) = first :: kept := by
      apply Text.splitAll_joinWith (by simp)
      intro part hpart
      apply Text.not_mem_of_mem_splitAll (s := body)
      rw [← hkept, ← List.cons_append]
      exact List.mem_append_left _ hpart
    refine .inr (.inr ⟨⟨more.map String.ofList, ?_, String.ofList part,
      List.mem_map_of_mem hpart, by simpa using hname⟩, ?_⟩)
    · obtain ⟨init, last, hlast⟩ := Text.exists_splitAll_eq_concat '/' head
      rw [segments, segments, hq, hp, Text.splitAll_append hlast hjoined,
        Text.splitAll_append hlast hkept.symm]
      simp
    · rcases hhead with ⟨rfl, hno⟩ | rfl | ⟨rfl, -⟩
      · -- the first part that is kept is not empty, so no separator comes first
        rw [List.nil_append] at hp hq
        have hbody : body ≠ [] := by
          rintro rfl
          rw [Text.splitAll, List.cons.injEq, List.append_eq_nil_iff] at hkept
          simp [hkept.2.2] at hpart
        have hfirst : first ≠ [] := by
          rintro rfl
          rcases Text.head?_of_splitAll_cons_nil hkept.symm with hnil | hslash
          · exact hbody hnil
          · exact hno (hp ▸ hslash)
        have hslash : (Text.joinWith ['/'] (first :: kept)).head? ≠ some '/' := by
          intro hhead
          obtain ⟨tail, htail⟩ := List.head?_eq_some_iff.1 hhead
          rw [htail, Text.splitAll_cons_self] at hjoined
          exact hfirst (List.cons.inj hjoined).1.symm
        rw [isAbsolute, isAbsolute, hq, beq_false_of_ne hslash, beq_false_of_ne hno]
      · simp [isAbsolute, hq, hp]
      · simp [isAbsolute, hq, hp]

theorem parent_eq_none (h : p.text = "" ∨ p.text = "/") : p.parent = none := by
  rcases h with h | h <;> simp [parent, h, splitHead, Text.splitAll, isSkipped]

theorem exists_ne_separator_of_parent (h : p.parent = some q) : ∃ d ∈ p.text.toList, d ≠ '/' := by
  refine Classical.byContradiction fun hno => ?_
  have hall : p.text.toList = List.replicate p.text.toList.length '/' :=
    List.eq_replicate_of_mem fun d hd => Classical.byContradiction fun hne => hno ⟨d, hd, hne⟩
  cases hn : p.text.toList.length with
  | zero =>
    rw [hn] at hall
    have hempty : p.text = "" := by simpa using hall
    simp [parent_eq_none (.inl hempty)] at h
  | succ n =>
    have hskip : ∀ n, Text.splitAll '/' (List.replicate n '/') = List.replicate (n + 1) [] := by
      intro n
      induction n with
      | zero => rfl
      | succ n ih => rw [List.replicate_succ, Text.splitAll_cons_self, ih]; rfl
    have hdrop : ∀ n, (List.replicate n ([] : List Char)).dropWhile isSkipped = [] := by
      intro n
      simp [isSkipped]
    rw [hn, List.replicate_succ] at hall
    simp [parent, hall, splitHead, hskip, hdrop] at h

end DocSite.Path
