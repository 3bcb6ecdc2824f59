import DocSite.Glob
import DocSite.Proofs.Text.Cut

namespace DocSite.Glob

variable {c d : Char} {s rest : List Char} {t : Token} {tokens : List Token} {atStart : Bool}

/-- A text is made of pieces that tokens stand for in order. -/
inductive Matches : List Token → List Char → Prop
  | nil : Matches [] []
  | one {t : Token} {c : Char} {tokens : List Token} {s : List Char} :
      t.takes c = true → Matches tokens s → Matches (t :: tokens) (c :: s)
  | run {word s : List Char} {tokens : List Token} :
      '/' ∉ word → Matches tokens s → Matches (.run :: tokens) (word ++ s)
  | directories {dirs s : List Char} {tokens : List Token} :
      dirs = [] ∨ dirs.getLast? = some '/' → Matches tokens s →
      Matches (.directories :: tokens) (dirs ++ s)
  | path {s : List Char} {tokens : List Token} :
      Matches tokens [] → Matches (.directories :: tokens) s

theorem matches_nil_iff : Matches [] s ↔ s = [] := by
  constructor
  · intro h
    cases h
    rfl
  · rintro rfl
    exact .nil

theorem matches_run_iff : Matches (.run :: tokens) s ↔
    ∃ word rest, '/' ∉ word ∧ s = word ++ rest ∧ Matches tokens rest := by
  constructor
  · intro h
    cases h with
    | one htakes => simp [Token.takes] at htakes
    | run hword hrest => exact ⟨_, _, hword, rfl, hrest⟩
  · rintro ⟨word, rest, hword, rfl, hrest⟩
    exact .run hword hrest

/-- Directories stop at the start, after a first directory, or with all that is left. -/
theorem matches_directories_iff : Matches (.directories :: tokens) s ↔
    Matches tokens s ∨ Matches tokens [] ∨ ∃ dir rest, '/' ∉ dir ∧ s = dir ++ '/' :: rest ∧
      Matches (.directories :: tokens) rest := by
  constructor
  · intro h
    cases h with
    | one htakes => simp [Token.takes] at htakes
    | @directories dirs rest _ hdirs hrest =>
      rcases hdirs with rfl | hlast
      · exact .inl hrest
      · obtain ⟨dir, dirs', rfl, hdir⟩ := List.eq_append_cons_of_mem (List.mem_of_getLast? hlast)
        refine .inr (.inr ⟨dir, dirs' ++ rest, hdir, by simp, .directories ?_ hrest⟩)
        cases dirs' with
        | nil => exact .inl rfl
        | cons d dirs' => exact .inr (by simpa using hlast)
    | path hrest => exact .inr (.inl hrest)
  · rintro (hstop | hrest | ⟨dir, rest, -, rfl, h⟩)
    · exact .directories (.inl rfl) hstop
    · exact .path hrest
    · cases h with
      | one htakes => simp [Token.takes] at htakes
      | @directories dirs rest _ hdirs hrest =>
        rw [← List.cons_append, ← List.append_assoc]
        refine .directories (.inr ?_) hrest
        rcases hdirs with rfl | hlast
        · simp
        · simp [List.getLast?_cons, hlast]
      | path hrest => exact .path hrest

theorem matches_one_iff (hrun : t ≠ .run) (hdirs : t ≠ .directories) :
    Matches (t :: tokens) s ↔ ∃ c rest, s = c :: rest ∧ t.takes c = true ∧ Matches tokens rest := by
  constructor
  · intro h
    cases h with
    | one htakes hrest => exact ⟨_, _, rfl, htakes, hrest⟩
    | run => exact absurd rfl hrun
    | directories => exact absurd rfl hdirs
    | path => exact absurd rfl hdirs
  · rintro ⟨c, rest, rfl, htakes, hrest⟩
    exact .one htakes hrest

/-- The matcher finds the pieces if there are any. -/
theorem accepts_iff : accepts tokens s = true ↔ Matches tokens s := by
  fun_induction accepts tokens s with
  | case1 s => rw [List.isEmpty_iff, matches_nil_iff]
  | case2 tokens ih =>
    rw [ih, matches_run_iff]
    constructor
    · intro h
      exact ⟨[], [], List.not_mem_nil, rfl, h⟩
    · rintro ⟨word, rest, -, hs, h⟩
      rwa [(List.append_eq_nil_iff.1 hs.symm).2] at h
  | case3 tokens c s ihstop ihrun =>
    rw [Bool.or_eq_true, Bool.and_eq_true, bne_iff_ne, ihstop, ihrun, matches_run_iff,
      matches_run_iff]
    constructor
    · rintro (h | ⟨hc, word, rest, hword, rfl, h⟩)
      · exact ⟨[], c :: s, List.not_mem_nil, rfl, h⟩
      · exact ⟨c :: word, rest, by simp [hword, Ne.symm hc], rfl, h⟩
    · rintro ⟨word, rest, hword, hs, h⟩
      cases word with
      | nil => exact .inl (hs ▸ h)
      | cons d word =>
        obtain ⟨rfl, rfl⟩ := List.cons.inj hs
        obtain ⟨hc, hword⟩ := List.ne_and_not_mem_of_not_mem_cons hword
        exact .inr ⟨Ne.symm hc, word, rest, hword, rfl, h⟩
  | case4 tokens s ihstop ihrest ihall =>
    rw [Bool.or_eq_true, ihstop, matches_directories_iff]
    refine or_congr_right ?_
    split
    · rename_i dir rest hcut
      obtain ⟨hs, hdir⟩ := Text.splitFirst_eq_some_iff.1 hcut
      rw [ihrest dir rest hcut]
      constructor
      · intro h
        exact .inr ⟨dir, rest, hdir, hs, h⟩
      · rintro (h | ⟨dir', rest', hdir', hs', h⟩)
        · exact .path h
        · have hcut' := hcut.symm.trans (Text.splitFirst_eq_some_iff.2 ⟨hs', hdir'⟩)
          obtain ⟨-, rfl⟩ := Prod.mk.inj (Option.some.inj hcut')
          exact h
    · rename_i hcut
      rw [ihall]
      refine ⟨.inl, ?_⟩
      rintro (h | ⟨dir, rest, hdir, hs, -⟩)
      · exact h
      · simp [Text.splitFirst_eq_some_iff.2 ⟨hs, hdir⟩] at hcut
  | case5 t tokens hrun hdirs => simp [matches_one_iff hrun hdirs]
  | case6 t tokens c s hrun hdirs ih =>
    rw [Bool.and_eq_true, ih, matches_one_iff hrun hdirs]
    constructor
    · rintro ⟨htakes, h⟩
      exact ⟨c, s, rfl, htakes, h⟩
    · rintro ⟨d, rest, hs, htakes, h⟩
      obtain ⟨rfl, rfl⟩ := List.cons.inj hs
      exact ⟨htakes, h⟩

def literal (c : Char) : Token := if isSpecial c then .inside [.single c] else .one c

theorem ne_of_isSpecial (hc : isSpecial c = true) (hd : isSpecial d = false) : c ≠ d := by
  rintro rfl
  simp [hc] at hd

theorem takes_literal : (literal c).takes d = true ↔ d = c := by
  unfold literal
  split
  · rename_i hc
    have hsep : c ≠ '/' := ne_of_isSpecial hc (by decide)
    simp only [Token.takes, SetItem.holds, List.any_cons, List.any_nil, Bool.or_false,
      Bool.and_eq_true, bne_iff_ne, beq_iff_eq, and_iff_right_iff_imp]
    rintro rfl
    exact hsep
  · simp [Token.takes]

theorem matches_literal_cons_iff :
    Matches (literal c :: tokens) s ↔ ∃ rest, s = c :: rest ∧ Matches tokens rest := by
  have hrun : literal c ≠ .run := by unfold literal; split <;> simp
  have hdirs : literal c ≠ .directories := by unfold literal; split <;> simp
  rw [matches_one_iff hrun hdirs]
  constructor
  · rintro ⟨d, rest, rfl, htakes, h⟩
    exact ⟨rest, by rw [takes_literal.1 htakes], h⟩
  · rintro ⟨rest, rfl, h⟩
    exact ⟨c, rest, rfl, takes_literal.2 rfl, h⟩

theorem matches_literals_append_iff {word : List Char} :
    Matches (word.map literal ++ tokens) s ↔ ∃ rest, s = word ++ rest ∧ Matches tokens rest := by
  induction word generalizing s with
  | nil => simp
  | cons c word ih =>
    rw [List.map_cons, List.cons_append, matches_literal_cons_iff]
    constructor
    · rintro ⟨rest, rfl, h⟩
      obtain ⟨rest', rfl, h'⟩ := ih.1 h
      exact ⟨rest', rfl, h'⟩
    · rintro ⟨rest, rfl, h⟩
      exact ⟨word ++ rest, rfl, ih.2 ⟨rest, rfl, h⟩⟩

theorem parse?_bracketed (hc : isSpecial c = true) :
    parse? atStart ('[' :: c :: ']' :: s) = (parse? false s).map (.inside [.single c] :: ·) := by
  have hset : set? (c :: ']' :: s) = some (.inside [.single c], s) := by
    have hbang : c ≠ '!' := ne_of_isSpecial hc (by decide)
    unfold set?
    split
    · rename_i heq
      exact absurd (List.cons.inj heq).1 hbang
    · rename_i d rest _ heq
      obtain ⟨rfl, rfl⟩ := List.cons.inj heq
      simp [Text.splitFirst, items]
    · contradiction
  rw [parse?]
  split
  · rename_i heq
    obtain ⟨rfl, rfl⟩ := Prod.mk.inj (Option.some.inj (hset.symm.trans heq))
    rfl
  · rename_i heq
    simp [hset] at heq

theorem parse?_plain (hc : isSpecial c = false) :
    parse? atStart (c :: s) = (parse? (c == '/') s).map (.one c :: ·) := by
  have hmark : c ≠ '?' := (ne_of_isSpecial (by decide) hc).symm
  have hstar : c ≠ '*' := (ne_of_isSpecial (by decide) hc).symm
  have hbracket : c ≠ '[' := (ne_of_isSpecial (by decide) hc).symm
  rw [parse?]
  · exact hmark
  · exact fun _ h => absurd h hstar
  · exact fun h => absurd h hstar
  · exact fun _ h => absurd h hstar
  · exact fun _ h => absurd h hstar
  · exact hstar
  · exact hbracket

theorem parse?_star (hs : s.head? ≠ some '*') :
    parse? atStart ('*' :: s) = (parse? false s).map (.run :: ·) := by
  rw [parse?]
  · rintro _ rfl
    exact hs rfl
  · rintro rfl
    exact hs rfl
  · rintro _ rfl
    exact hs rfl
  · rintro _ rfl
    exact hs rfl

theorem escape_cons (c : Char) (s : List Char) :
    escape (c :: s) = (if isSpecial c then ['[', c, ']'] else [c]) ++ escape s := rfl

/-- An escaped text is read as the tokens of its characters, whatever follows it. -/
theorem parse?_escape_append : parse? atStart (escape s ++ rest) =
    (parse? (s.foldl (fun _ c => c == '/') atStart) rest).map (s.map literal ++ ·) := by
  induction s generalizing atStart with
  | nil => simp [escape]
  | cons c s ih =>
    rw [escape_cons, List.append_assoc, List.foldl_cons, List.map_cons, literal]
    by_cases hc : isSpecial c = true
    · have hsep : (c == '/') = false := beq_eq_false_iff_ne.2 (ne_of_isSpecial hc (by decide))
      rw [if_pos hc, if_pos hc, hsep]
      simp only [List.cons_append, List.nil_append, parse?_bracketed hc, ih, Option.map_map]
      rfl
    · rw [if_neg hc, if_neg hc, List.singleton_append, parse?_plain (by simpa using hc), ih,
        Option.map_map]
      rfl

theorem head?_escape_ne : (escape s).head? ≠ some '*' := by
  cases s with
  | nil => simp [escape]
  | cons c s =>
    rw [escape_cons]
    split
    · simp
    · rename_i hc
      simp only [List.cons_append, List.nil_append, List.head?_cons, ne_eq, Option.some.injEq]
      rintro rfl
      exact hc (by decide)

theorem mem_escape_iff (hc : isSpecial c = false) : c ∈ escape s ↔ c ∈ s := by
  have hopen : c ≠ '[' := (ne_of_isSpecial (by decide) hc).symm
  have hclose : c ≠ ']' := (ne_of_isSpecial (by decide) hc).symm
  induction s with
  | nil => simp [escape]
  | cons d s ih =>
    rw [escape_cons, List.mem_append, List.mem_cons]
    refine or_congr ?_ ih
    split
    · simp [hopen, hclose]
    · simp

end DocSite.Glob
