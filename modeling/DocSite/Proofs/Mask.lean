import DocSite.Mask
import DocSite.Proofs.Glob
import DocSite.Proofs.Site.View

namespace DocSite

namespace Mask

variable {pattern : String} {before after s : List Char} {m : Mask}

theorem ofPattern?_of_cut (h : Text.CutAtFirst placeholder pattern.toList before after) :
    ofPattern? pattern = some ⟨before.map Glob.literal ++ .run :: after.map Glob.literal,
      (Glob.escape before ++ '*' :: Glob.escape after).contains '/'⟩ := by
  have hafter : ∀ atStart, Glob.parse? atStart (Glob.escape after) =
      some (after.map Glob.literal) := by
    intro atStart
    have happend : Glob.parse? atStart (Glob.escape after ++ []) = _ :=
      Glob.parse?_escape_append
    rwa [List.append_nil, Glob.parse?, Option.map_some, List.append_nil] at happend
  have hparse : Glob.parse? true (Glob.escape before ++ '*' :: Glob.escape after) =
      some (before.map Glob.literal ++ .run :: after.map Glob.literal) := by
    rw [Glob.parse?_escape_append, Glob.parse?_star Glob.head?_escape_ne, hafter]
    rfl
  rw [ofPattern?, Text.splitAt?_eq_some_iff.2 h]
  simp [hparse]

/-- The mask looks at the path below the target if the pattern has a separator. -/
theorem onPath_iff (h : Text.CutAtFirst placeholder pattern.toList before after)
    (hm : ofPattern? pattern = some m) : m.onPath = true ↔ '/' ∈ pattern.toList := by
  rw [ofPattern?_of_cut h, Option.some.injEq] at hm
  subst hm
  have hsep : Glob.isSpecial '/' = false := by decide
  simp [Glob.mem_escape_iff hsep, h.1, placeholder]

theorem accepts_iff (h : Text.CutAtFirst placeholder pattern.toList before after)
    (hm : ofPattern? pattern = some m) :
    m.accepts s = true ↔ ∃ word, '/' ∉ word ∧ s = before ++ word ++ after := by
  rw [ofPattern?_of_cut h, Option.some.injEq] at hm
  subst hm
  -- behind the run are the characters of one text, which are all that is left of `s`
  have hafter : ∀ rest, Glob.Matches (after.map Glob.literal) rest ↔ rest = after := by
    intro rest
    have happend : Glob.Matches (after.map Glob.literal ++ []) rest ↔ _ :=
      Glob.matches_literals_append_iff
    simpa [Glob.matches_nil_iff] using happend
  rw [accepts, Glob.accepts_iff, Glob.matches_literals_append_iff]
  constructor
  · rintro ⟨rest, rfl, hrun⟩
    obtain ⟨word, last, hword, rfl, hlast⟩ := Glob.matches_run_iff.1 hrun
    exact ⟨word, hword, by rw [(hafter _).1 hlast, List.append_assoc]⟩
  · rintro ⟨word, hword, rfl⟩
    exact ⟨word ++ after, List.append_assoc .., .run hword ((hafter _).2 rfl)⟩

theorem accepts_fill {token : String} (hm : ofPattern? pattern = some m)
    (htoken : '/' ∉ token.toList) : m.accepts (Filenames.fill pattern token).toList = true := by
  cases hsplit : Text.splitAt? placeholder pattern.toList with
  | none => simp [ofPattern?, hsplit] at hm
  | some cut =>
    rw [accepts_iff (Text.splitAt?_eq_some_iff.1 hsplit) hm, Filenames.fill, hsplit]
    exact ⟨token.toList, htoken, String.toList_ofList⟩

/-- A pattern with a placeholder has a mask. It accepts just the texts that arise from the pattern
by putting a text without separators for the first placeholder, whatever characters the pattern has
elsewhere, and so every page that links make from the pattern. -/
theorem accepts_exactly_fillings (pattern : String) (h : placeholder <:+: pattern.toList) :
    ∃ before after m, Text.CutAtFirst placeholder pattern.toList before after ∧
      ofPattern? pattern = some m ∧
      (∀ s, m.accepts s = true ↔ ∃ word, '/' ∉ word ∧ s = before ++ word ++ after) ∧
      ∀ (l : Links) kind name, l.filenames.get? kind = some pattern →
        (∃ link, l.page kind (tokenOf name) = .ok link ∧ m.accepts link.toList = true) ∧
        ∃ link, l.page kind (groupToken name) = .ok link ∧ m.accepts link.toList = true := by
  obtain ⟨⟨before, after⟩, hsplit⟩ := Option.isSome_iff_exists.1 (Text.hasWord_iff.2 h)
  have hcut := Text.splitAt?_eq_some_iff.1 hsplit
  have hm := ofPattern?_of_cut hcut
  refine ⟨before, after, _, hcut, hm, fun s => accepts_iff hcut hm, fun l kind name hl => ?_⟩
  have hpage : ∀ token, l.page kind token = .ok (Filenames.fill pattern token) := by
    intro token
    simp only [Links.page, hl]
  exact ⟨⟨_, hpage _, accepts_fill hm (no_separator_tokenOf name)⟩,
    _, hpage _, accepts_fill hm (no_separator_groupToken name)⟩

/-- Brackets and stars of a pattern stand for themselves in its mask. -/
theorem accepts_exactly_fillings_bracketed : placeholder <:+: "[!a]*%s?.html".toList ∧
    ∃ m, ofPattern? "[!a]*%s?.html" = some m ∧ m.accepts "[!a]*.x?.html".toList = true ∧
      m.accepts "bc.x?.html".toList = false ∧ m.accepts "[!a]*x/y?.html".toList = false := by
  have hholds : placeholder <:+: "[!a]*%s?.html".toList :=
    ⟨"[!a]*".toList, "?.html".toList, by decide⟩
  obtain ⟨before, after, m, hcut, hm, haccepts, -⟩ :=
    accepts_exactly_fillings "[!a]*%s?.html" hholds
  have hsplit : Text.splitAt? placeholder "[!a]*%s?.html".toList =
      some ("[!a]*".toList, "?.html".toList) := by decide
  obtain ⟨rfl, rfl⟩ := hcut.unique (Text.splitAt?_eq_some_iff.1 hsplit)
  refine ⟨hholds, m, hm, (haccepts _).2 ⟨".x".toList, by decide, by decide⟩, ?_, ?_⟩
  · rw [Bool.eq_false_iff, ne_eq, haccepts]
    rintro ⟨word, -, hs⟩
    simp at hs
  · rw [Bool.eq_false_iff, ne_eq, haccepts]
    rintro ⟨word, hword, hs⟩
    have hmem : '/' ∈ "[!a]*x/y?.html".toList := by decide
    simp [hs, hword] at hmem

end Mask

/-- Whether a pattern could have named a file with the given names below the target. A pattern with
a separator is about the path below the target, any other about the last name. -/
def Filenames.CouldName (pattern : String) (names : List String) : Prop :=
  ∃ before after word, Text.CutAtFirst placeholder pattern.toList before after ∧ '/' ∉ word ∧
    (if '/' ∈ pattern.toList then Text.joinWith ['/'] (names.map String.toList)
      else (names.getLast?.getD "").toList) = before ++ word ++ after

theorem Mask.exists_acceptsFile_iff {pattern : String} {names : List String} :
    (∃ m, Mask.ofPattern? pattern = some m ∧ m.acceptsFile names = true) ↔
      Filenames.CouldName pattern names := by
  have haccept : ∀ {before after m}, Text.CutAtFirst placeholder pattern.toList before after →
      Mask.ofPattern? pattern = some m → (m.acceptsFile names = true ↔ ∃ word, '/' ∉ word ∧
        (if '/' ∈ pattern.toList then Text.joinWith ['/'] (names.map String.toList)
          else (names.getLast?.getD "").toList) = before ++ word ++ after) := by
    intro before after m hcut hm
    unfold acceptsFile
    by_cases hsep : '/' ∈ pattern.toList
    · rw [if_pos ((onPath_iff hcut hm).2 hsep), if_pos hsep, accepts_iff hcut hm]
    · rw [if_neg (mt (onPath_iff hcut hm).1 hsep), if_neg hsep, accepts_iff hcut hm]
  constructor
  · rintro ⟨m, hm, hacc⟩
    cases hsplit : Text.splitAt? placeholder pattern.toList with
    | none => simp [ofPattern?, hsplit] at hm
    | some cut =>
      have hcut := Text.splitAt?_eq_some_iff.1 hsplit
      obtain ⟨word, hword, hs⟩ := (haccept hcut hm).1 hacc
      exact ⟨cut.1, cut.2, word, hcut, hword, hs⟩
  · rintro ⟨before, after, word, hcut, hword, hs⟩
    have hm := ofPattern?_of_cut hcut
    exact ⟨_, hm, (haccept hcut hm).2 ⟨word, hword, hs⟩⟩

end DocSite
