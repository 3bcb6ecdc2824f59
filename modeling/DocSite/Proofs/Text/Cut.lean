import DocSite.Text.Blank
import DocSite.Text.Cut

namespace DocSite.Text

variable {α : Type} [DecidableEq α]

theorem splitAll_cons_self (c : α) (s : List α) :
    splitAll c (c :: s) = [] :: splitAll c s := by
  simp [splitAll]

theorem splitAll_append_cons (c : α) (a b : List α) :
    splitAll c (a ++ c :: b) = splitAll c a ++ splitAll c b := by
  induction a with
  | nil => simp [splitAll]
  | cons d a ih =>
    rw [List.cons_append, splitAll, splitAll, ih]
    split
    · rfl
    · cases h : splitAll c a with
      | nil => exact absurd h (splitAll_ne_nil c a)
      | cons part rest => rfl

theorem not_mem_of_mem_splitAll {c : α} {s part : List α} (h : part ∈ splitAll c s) :
    c ∉ part := by
  induction s generalizing part with
  | nil => simp_all [splitAll]
  | cons d s ih =>
    rw [splitAll] at h
    split at h
    · rcases List.mem_cons.1 h with rfl | h
      · exact List.not_mem_nil
      · exact ih h
    · rename_i hd
      cases hs : splitAll c s with
      | nil => exact absurd hs (splitAll_ne_nil c s)
      | cons first rest =>
        simp only [hs] at h
        rcases List.mem_cons.1 h with rfl | h
        · have hfirst : c ∉ first := ih (by simp [hs])
          simp [hfirst, Ne.symm hd]
        · exact ih (by simp [hs, h])

theorem splitAll_of_not_mem {c : α} {s : List α} (h : c ∉ s) : splitAll c s = [s] := by
  induction s with
  | nil => rfl
  | cons d s ih =>
    simp only [List.mem_cons, not_or] at h
    rw [splitAll, if_neg (Ne.symm h.1), ih h.2]

/-- A text whose first part is empty is empty or starts with the separator. -/
theorem head?_of_splitAll_cons_nil {c : α} {s : List α} {rest : List (List α)}
    (h : splitAll c s = [] :: rest) : s = [] ∨ s.head? = some c := by
  have hjoin := joinWith_splitAll c s
  rw [h] at hjoin
  cases rest with
  | nil => exact .inl hjoin.symm
  | cons part rest => exact .inr (by rw [← hjoin]; rfl)

theorem exists_splitAll_eq_concat (c : α) (s : List α) :
    ∃ before last, splitAll c s = before ++ [last] :=
  ⟨_, _, (List.dropLast_concat_getLast (splitAll_ne_nil c s)).symm⟩

/-- Where two texts meet, the last part of the first and the first part of the second are one. -/
theorem splitAll_append {c : α} {a b last first : List α} {before rest : List (List α)}
    (ha : splitAll c a = before ++ [last]) (hb : splitAll c b = first :: rest) :
    splitAll c (a ++ b) = before ++ (last ++ first) :: rest := by
  induction a generalizing before last with
  | nil =>
    have ha : [] ++ [[]] = before ++ [last] := ha
    obtain ⟨rfl, hlast⟩ := List.append_inj' ha rfl
    obtain rfl := List.singleton_inj.1 hlast
    exact hb
  | cons d a ih =>
    obtain ⟨init, part, hsplit⟩ := exists_splitAll_eq_concat c a
    rw [splitAll, hsplit] at ha
    rw [List.cons_append, splitAll, ih hsplit]
    by_cases hd : d = c
    · rw [if_pos hd, ← List.cons_append] at ha
      obtain ⟨rfl, hlast⟩ := List.append_inj' ha rfl
      obtain rfl := List.singleton_inj.1 hlast
      rw [if_pos hd]
      rfl
    · rw [if_neg hd] at ha ⊢
      cases init with
      | nil =>
        have ha : [] ++ [d :: part] = before ++ [last] := ha
        obtain ⟨rfl, hlast⟩ := List.append_inj' ha rfl
        obtain rfl := List.singleton_inj.1 hlast
        rfl
      | cons x init =>
        have ha : ((d :: x) :: init) ++ [part] = before ++ [last] := ha
        obtain ⟨rfl, hlast⟩ := List.append_inj' ha rfl
        obtain rfl := List.singleton_inj.1 hlast
        rfl

/-- The last part of a text that does not end in the separator is not empty. -/
theorem getLast?_splitAll_concat {c d : Char} (s : List Char) (hd : d ≠ c) :
    ∃ part, (splitAll c (s ++ [d])).getLast? = some part ∧ part ≠ [] := by
  obtain ⟨before, last, hs⟩ := exists_splitAll_eq_concat c s
  have hone : splitAll c [d] = [[d]] := splitAll_of_not_mem (by simpa using Ne.symm hd)
  exact ⟨last ++ [d], by simp [splitAll_append hs hone], by simp⟩

/-- An empty part behind the first comes from a separator at the end or from two in a row. -/
theorem separators_of_nil_mem {c : α} {first s : List α} {parts : List (List α)}
    (h : splitAll c s = first :: parts) (hnil : [] ∈ parts) :
    s.getLast? = some c ∨ [c, c] <:+: s := by
  induction s generalizing first parts with
  | nil =>
    obtain ⟨-, rfl⟩ := List.cons.inj h
    simp at hnil
  | cons d s ih =>
    have hgrow : s.getLast? = some c ∨ [c, c] <:+: s →
        (d :: s).getLast? = some c ∨ [c, c] <:+: d :: s := by
      refine Or.imp (fun hlast => ?_) fun hinfix => hinfix.trans (List.suffix_cons d s).isInfix
      rw [List.getLast?_cons, hlast, Option.getD_some]
    cases hs : splitAll c s with
    | nil => exact absurd hs (splitAll_ne_nil c s)
    | cons part more =>
      by_cases hd : d = c
      · subst hd
        rw [splitAll_cons_self, hs] at h
        obtain ⟨-, rfl⟩ := List.cons.inj h
        rcases List.mem_cons.1 hnil with rfl | hnil
        · rcases head?_of_splitAll_cons_nil hs with rfl | hhead
          · exact .inl rfl
          · obtain ⟨s, rfl⟩ := List.head?_eq_some_iff.1 hhead
            exact .inr ⟨[], s, rfl⟩
        · exact hgrow (ih hs hnil)
      · rw [splitAll, if_neg hd, hs] at h
        obtain ⟨-, rfl⟩ := List.cons.inj h
        exact hgrow (ih hs hnil)

omit [DecidableEq α] in
theorem joinWith_cons_cons (sep part next : List α) (parts : List (List α)) :
    joinWith sep (part :: next :: parts) = part ++ sep ++ joinWith sep (next :: parts) := rfl

/-- Parts without the separator are found again after they were joined. -/
theorem splitAll_joinWith {c : α} {parts : List (List α)} (hne : parts ≠ [])
    (hparts : ∀ part ∈ parts, c ∉ part) : splitAll c (joinWith [c] parts) = parts := by
  induction parts with
  | nil => exact absurd rfl hne
  | cons part parts ih =>
    have hpart : splitAll c part = [part] := splitAll_of_not_mem (hparts part (.head _))
    cases parts with
    | nil => exact hpart
    | cons q parts =>
      rw [joinWith_cons_cons, List.append_assoc, List.singleton_append, splitAll_append_cons, hpart,
        ih (by simp) fun p hp => hparts p (.tail _ hp), List.singleton_append]

theorem joinWith_eq_intercalate (sep : List Char) (parts : List (List Char)) :
    joinWith sep parts = sep.intercalate parts := by
  induction parts with
  | nil => rfl
  | cons part parts ih =>
    cases parts with
    | nil => rw [joinWith, List.intercalate_singleton]
    | cons next parts =>
      rw [joinWith_cons_cons, ih, List.intercalate_cons_cons]

theorem mem_joinWith {sep part : List Char} {parts : List (List Char)} {c : Char}
    (hpart : part ∈ parts) (hc : c ∈ part) : c ∈ joinWith sep parts := by
  induction parts with
  | nil => simp at hpart
  | cons first parts ih =>
    cases parts with
    | nil => rwa [joinWith, ← List.mem_singleton.1 hpart]
    | cons next parts =>
      rw [joinWith_cons_cons, List.mem_append, List.mem_append]
      rcases List.mem_cons.1 hpart with rfl | hpart
      · exact .inl (.inl hc)
      · exact .inr (ih hpart)

theorem forall_mem_joinWith {P : Char → Prop} {sep : List Char} {parts : List (List Char)}
    (hsep : ∀ c ∈ sep, P c) (hparts : ∀ part ∈ parts, ∀ c ∈ part, P c) :
    ∀ c ∈ joinWith sep parts, P c := by
  induction parts with
  | nil => simp [joinWith]
  | cons part parts ih =>
    obtain ⟨hpart, hrest⟩ := List.forall_mem_cons.1 hparts
    cases parts with
    | nil => exact hpart
    | cons next parts =>
      rw [joinWith_cons_cons, List.forall_mem_append, List.forall_mem_append]
      exact ⟨⟨hpart, hsep⟩, ih hrest⟩

theorem splitAll_append_replicate (c : Char) (s : List Char) (n : Nat) :
    splitAll c (s ++ List.replicate n c) = splitAll c s ++ List.replicate n [] := by
  induction n with
  | zero => simp
  | succ n ih =>
    rw [List.replicate_succ', ← List.append_assoc, splitAll_append_cons, ih, List.replicate_succ',
      List.append_assoc]
    rfl

/-- Nothing is dropped before the last character that is kept. -/
theorem dropEndWhile_append {p : Char → Bool} {a b : List Char} (h : ∃ d ∈ b, p d = false) :
    dropEndWhile p (a ++ b) = a ++ dropEndWhile p b := by
  obtain ⟨d, hd, hkept⟩ := h
  have hne : b.reverse.dropWhile p ≠ [] := by
    intro hnil
    have hsplit : b.reverse.takeWhile p ++ b.reverse.dropWhile p = b.reverse :=
      List.takeWhile_append_dropWhile
    rw [hnil, List.append_nil] at hsplit
    have hmem : d ∈ b.reverse.takeWhile p := by
      rw [hsplit]
      exact List.mem_reverse.2 hd
    simpa [hkept] using List.all_eq_true.1 List.all_takeWhile d hmem
  rw [dropEndWhile, List.reverse_append, List.dropWhile_append,
    if_neg (by simpa only [List.isEmpty_iff] using hne), List.reverse_append, List.reverse_reverse,
    dropEndWhile]

theorem dropEndWhile_cases (p : Char → Bool) (s : List Char) :
    dropEndWhile p s = [] ∨ ∃ start d, dropEndWhile p s = start ++ [d] ∧ p d = false := by
  have hhead := List.head?_dropWhile_not p s.reverse
  rw [dropEndWhile]
  cases hdrop : s.reverse.dropWhile p with
  | nil => exact .inl rfl
  | cons d rest =>
    rw [hdrop] at hhead
    exact .inr ⟨rest.reverse, d, List.reverse_cons, by simpa using hhead⟩

theorem trim_cases (s : String) : (trim s).toList = [] ∨
    ∃ start d, (trim s).toList = start ++ [d] ∧ isBlank d = false := by
  rw [trim, String.toList_ofList]
  exact dropEndWhile_cases _ _

theorem exists_eq_dropEndWhile_append (c : Char) (s : List Char) :
    ∃ n, s = dropEndWhile (· == c) s ++ List.replicate n c := by
  refine ⟨(s.reverse.takeWhile (· == c)).length, ?_⟩
  -- what is dropped is the run of `c` with which the reversed text begins
  have hrun : s.reverse.takeWhile (· == c) = List.replicate _ c :=
    List.eq_replicate_iff.2
      ⟨rfl, fun d hd => by simpa using List.all_eq_true.1 List.all_takeWhile d hd⟩
  have hall : (s.reverse.takeWhile (· == c) ++ s.reverse.dropWhile (· == c)).reverse = _ :=
    congrArg List.reverse List.takeWhile_append_dropWhile
  rw [List.reverse_append, List.reverse_reverse, hrun, List.reverse_replicate] at hall
  simpa [dropEndWhile] using hall.symm

theorem dropWhile_append_of_all {p : Char → Bool} {a : List Char} (h : ∀ c ∈ a, p c = true)
    (b : List Char) : (a ++ b).dropWhile p = b.dropWhile p := by
  induction a with
  | nil => rfl
  | cons c a ih =>
    rw [List.cons_append, List.dropWhile_cons_of_pos (h c (.head _)),
      ih fun d hd => h d (.tail _ hd)]

theorem dropWhile_eq_self_of_head {p : Char → Bool} {s : List Char}
    (h : ∀ c ∈ s.head?, p c = false) : s.dropWhile p = s := by
  cases s with
  | nil => rfl
  | cons c s => exact List.dropWhile_cons_of_neg (by simp [h c rfl])

/-- What is dropped ends before a part that begins with a character that is kept. -/
theorem dropWhile_append_of_head {p : Char → Bool} {b : List Char}
    (h : ∀ c ∈ b.head?, p c = false) (a : List Char) :
    (a ++ b).dropWhile p = a.dropWhile p ++ b := by
  rw [List.dropWhile_append, dropWhile_eq_self_of_head h]
  split
  · rename_i hnil
    rw [List.isEmpty_iff.1 hnil, List.nil_append]
  · rfl

theorem dropEndWhile_append_of_all {p : Char → Bool} {b : List Char} (h : ∀ c ∈ b, p c = true)
    (a : List Char) : dropEndWhile p (a ++ b) = dropEndWhile p a := by
  rw [dropEndWhile, List.reverse_append,
    dropWhile_append_of_all (fun c hc => h c (List.mem_reverse.1 hc)), dropEndWhile]

theorem dropEndWhile_eq_self_of_last {p : Char → Bool} {s : List Char}
    (h : ∀ c ∈ s.getLast?, p c = false) : dropEndWhile p s = s := by
  rw [dropEndWhile, dropWhile_eq_self_of_head (by rwa [List.head?_reverse]), List.reverse_reverse]

theorem trimWhile_eq_self {p : Char → Bool} {s : List Char} (hhead : ∀ c ∈ s.head?, p c = false)
    (hlast : ∀ c ∈ s.getLast?, p c = false) : trimWhile p s = s := by
  rw [trimWhile, dropWhile_eq_self_of_head hhead, dropEndWhile_eq_self_of_last hlast]

/-- What is trimmed off may stand at both ends or not. -/
theorem trimWhile_append_append {p : Char → Bool} {a b : List Char} (ha : ∀ c ∈ a, p c = true)
    (hb : ∀ c ∈ b, p c = true) (s : List Char) : trimWhile p (a ++ s ++ b) = trimWhile p s := by
  have hall : b.dropWhile p = [] := by simpa using dropWhile_append_of_all hb []
  rw [trimWhile, List.append_assoc, dropWhile_append_of_all ha, List.dropWhile_append, trimWhile]
  split
  · rename_i hnil
    rw [List.isEmpty_iff.1 hnil, hall]
  · exact dropEndWhile_append_of_all hb _

theorem before?_eq_some_iff {word s rest : List Char} :
    before? word s = some rest ↔ s = rest ++ word := by
  rw [before?, Option.map_eq_some_iff]
  constructor
  · rintro ⟨tail, htail, rfl⟩
    rw [← List.reverse_reverse s, after?_eq_some_iff.1 htail, List.reverse_append,
      List.reverse_reverse]
  · rintro rfl
    exact ⟨rest.reverse, after?_eq_some_iff.2 List.reverse_append, List.reverse_reverse rest⟩

theorem eq_of_splitAt?_eq_some {word s a b : List Char} (h : splitAt? word s = some (a, b)) :
    s = a ++ word ++ b := by
  induction s generalizing a with
  | nil =>
    simp only [splitAt?, Option.map_eq_some_iff, Prod.mk.injEq] at h
    obtain ⟨rest, hrest, rfl, rfl⟩ := h
    exact after?_eq_some_iff.1 hrest
  | cons c s ih =>
    simp only [splitAt?] at h
    split at h
    · rename_i rest hrest
      obtain ⟨rfl, rfl⟩ := Prod.mk.inj (Option.some.inj h)
      exact after?_eq_some_iff.1 hrest
    · simp only [Option.map_eq_some_iff, Prod.mk.injEq] at h
      obtain ⟨⟨x, y⟩, hxy, rfl, rfl⟩ := h
      rw [ih hxy, List.cons_append, List.cons_append]

/-- A text is `before`, the first occurrence of a word, and `after`. -/
def CutAtFirst (word s before after : List Char) : Prop :=
  s = before ++ word ++ after ∧ ∀ b a, s = b ++ word ++ a → before.length ≤ b.length

theorem CutAtFirst.unique {word s before after b a : List Char}
    (h : CutAtFirst word s before after) (h' : CutAtFirst word s b a) :
    before = b ∧ after = a := by
  have hlen : before.length = b.length :=
    Nat.le_antisymm (h.2 b a h'.1) (h'.2 before after h.1)
  have heq := h.1.symm.trans h'.1
  rw [List.append_assoc, List.append_assoc] at heq
  obtain ⟨hb, ha⟩ := List.append_inj heq hlen
  exact ⟨hb, List.append_cancel_left ha⟩

theorem splitAt?_isSome (word b a : List Char) : (splitAt? word (b ++ word ++ a)).isSome := by
  induction b with
  | nil =>
    rw [List.nil_append]
    cases word with
    | nil => cases a <;> simp [splitAt?, after?]
    | cons c word =>
      have hstart : after? (c :: word) (c :: (word ++ a)) = some a := after?_append (c :: word) a
      simp [splitAt?, hstart]
  | cons c b ih =>
    simp only [List.cons_append, splitAt?]
    split
    · rfl
    · simpa using ih

theorem cutAtFirst_of_splitAt? {word s before after : List Char}
    (h : splitAt? word s = some (before, after)) : CutAtFirst word s before after := by
  refine ⟨eq_of_splitAt?_eq_some h, fun b a hs => ?_⟩
  induction s generalizing before b with
  | nil =>
    simp only [splitAt?, Option.map_eq_some_iff, Prod.mk.injEq] at h
    obtain ⟨-, -, rfl, -⟩ := h
    exact Nat.zero_le _
  | cons c s ih =>
    simp only [splitAt?] at h
    split at h
    · obtain ⟨rfl, -⟩ := Prod.mk.inj (Option.some.inj h)
      exact Nat.zero_le _
    · rename_i hno
      simp only [Option.map_eq_some_iff, Prod.mk.injEq] at h
      obtain ⟨⟨x, y⟩, hxy, rfl, rfl⟩ := h
      -- the word does not stand here, so a cut at it has a text before it
      cases b with
      | nil => exact absurd (after?_eq_some_iff.2 hs) (by simp [hno])
      | cons d b => exact Nat.succ_le_succ (ih hxy b (List.cons.inj hs).2)

theorem splitAt?_eq_some_iff {word s before after : List Char} :
    splitAt? word s = some (before, after) ↔ CutAtFirst word s before after := by
  refine ⟨cutAtFirst_of_splitAt?, fun h => ?_⟩
  obtain ⟨cut, hcut⟩ := Option.isSome_iff_exists.1 (splitAt?_isSome word before after)
  rw [← h.1] at hcut
  obtain ⟨rfl, rfl⟩ := h.unique (cutAtFirst_of_splitAt? hcut)
  exact hcut

theorem hasWord_iff {word s : List Char} : hasWord word s = true ↔ word <:+: s := by
  rw [hasWord, Option.isSome_iff_exists]
  constructor
  · rintro ⟨⟨before, after⟩, hcut⟩
    exact ⟨before, after, (eq_of_splitAt?_eq_some hcut).symm⟩
  · rintro ⟨before, after, rfl⟩
    exact Option.isSome_iff_exists.1 (splitAt?_isSome word before after)

theorem splitFirst_eq_some_iff {c : Char} {s a b : List Char} :
    splitFirst (· == c) s = some (a, b) ↔ s = a ++ c :: b ∧ c ∉ a := by
  induction s generalizing a with
  | nil => simp [splitFirst]
  | cons d s ih =>
    rw [splitFirst]
    by_cases hd : d = c
    · subst hd
      cases a with
      | nil => simp
      | cons e a => simp +contextual
    · rw [if_neg (by simpa using hd), Option.map_eq_some_iff]
      constructor
      · rintro ⟨⟨x, y⟩, hxy, heq⟩
        obtain ⟨rfl, rfl⟩ := Prod.mk.inj heq
        obtain ⟨rfl, hx⟩ := ih.1 hxy
        exact ⟨rfl, by simp [hx, Ne.symm hd]⟩
      · rintro ⟨hs, ha⟩
        cases a with
        | nil => exact absurd (List.cons.inj hs).1 hd
        | cons e a =>
          obtain ⟨rfl, rfl⟩ := List.cons.inj hs
          exact ⟨(a, b), ih.2 ⟨rfl, fun h => ha (.tail _ h)⟩, rfl⟩

theorem splitFirst_eq_none_iff {p : Char → Bool} {s : List Char} :
    splitFirst p s = none ↔ ∀ c ∈ s, p c = false := by
  induction s with
  | nil => simp [splitFirst]
  | cons c s ih =>
    rw [splitFirst, List.forall_mem_cons]
    by_cases hc : p c = true
    · simp [hc]
    · simp [hc, ih]

theorem splitFirst_append_cons {p : Char → Bool} {a : List Char} {c : Char}
    (ha : ∀ d ∈ a, p d = false) (hc : p c = true) (b : List Char) :
    splitFirst p (a ++ c :: b) = some (a, b) := by
  induction a with
  | nil => rw [List.nil_append, splitFirst, if_pos hc]
  | cons d a ih =>
    obtain ⟨hd, ha⟩ := List.forall_mem_cons.1 ha
    rw [List.cons_append, splitFirst, hd, if_neg Bool.false_ne_true, ih ha, Option.map_some]

/-- The text is cut at a character that satisfies the predicate, and none before it does. -/
theorem exists_eq_of_splitFirst {p : Char → Bool} {s a b : List Char}
    (h : splitFirst p s = some (a, b)) :
    ∃ c, s = a ++ c :: b ∧ p c = true ∧ ∀ d ∈ a, p d = false := by
  induction s generalizing a with
  | nil => simp [splitFirst] at h
  | cons d s ih =>
    rw [splitFirst] at h
    split at h
    · rename_i hd
      obtain ⟨rfl, rfl⟩ := Prod.mk.inj (Option.some.inj h)
      exact ⟨d, rfl, hd, by simp⟩
    · rename_i hd
      obtain ⟨⟨x, y⟩, hxy, heq⟩ := Option.map_eq_some_iff.1 h
      obtain ⟨rfl, rfl⟩ := Prod.mk.inj heq
      obtain ⟨c, rfl, hc, hx⟩ := ih hxy
      exact ⟨c, rfl, hc, List.forall_mem_cons.2 ⟨by simpa using hd, hx⟩⟩

theorem splitLast_eq_none_iff {c : Char} {s : List Char} : splitLast c s = none ↔ c ∉ s := by
  rw [splitLast, Option.map_eq_none_iff, splitFirst_eq_none_iff]
  simp only [List.mem_reverse, beq_eq_false_iff_ne]
  exact ⟨fun h hc => h c hc rfl, fun h d hd hdc => h (hdc ▸ hd)⟩

theorem splitLast_eq_some_iff {c : Char} {s a b : List Char} :
    splitLast c s = some (a, b) ↔ s = a ++ c :: b ∧ c ∉ b := by
  rw [splitLast, Option.map_eq_some_iff]
  constructor
  · rintro ⟨⟨x, y⟩, hxy, heq⟩
    obtain ⟨rfl, rfl⟩ := Prod.mk.inj heq
    obtain ⟨hs, hx⟩ := splitFirst_eq_some_iff.1 hxy
    refine ⟨?_, by simpa using hx⟩
    rw [← List.reverse_reverse s, hs]
    simp
  · rintro ⟨rfl, hb⟩
    exact ⟨(b.reverse, a.reverse), splitFirst_eq_some_iff.2 ⟨by simp, by simpa using hb⟩, by simp⟩

end DocSite.Text
