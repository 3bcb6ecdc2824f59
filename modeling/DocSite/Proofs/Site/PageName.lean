import DocSite.Proofs.Config
import DocSite.Proofs.FileTree.Creation
import DocSite.Proofs.Site.Page

namespace DocSite

open DocSite.Path (GoesDown)

variable {pattern token : String} {before after : List Char} {kind : PageKind} {c : Config}

/-- The token of a name in the names of pages of a kind. -/
def PageKind.nameToken : PageKind → String → String
  | namespacePage, name => groupToken name
  | packagePage, name => groupToken name
  | classPage, name => tokenOf name
  | sourcePage, name => tokenOf name

/-- The tokens of a kind that can be part of `..` or leave a separator at the start. -/
def PageKind.slightTokens : PageKind → List String
  | namespacePage => [".", ".."]
  | packagePage => [".", ".."]
  | classPage => ["", ".", ".."]
  | sourcePage => ["", ".", ".."]

namespace Filenames

theorem toList_fill (hcut : Text.splitAt? placeholder pattern.toList = some (before, after))
    (token : String) : (fill pattern token).toList = before ++ token.toList ++ after := by
  simp [fill, hcut]

/-- The token becomes part of one segment, and the others do not depend on it. -/
theorem exists_segments_fill
    (hcut : Text.splitAt? placeholder pattern.toList = some (before, after)) :
    ∃ (init rest : List String) (last first : List Char), ∀ token, '/' ∉ token.toList →
      Path.segments ⟨fill pattern token⟩ =
        init ++ String.ofList (last ++ token.toList ++ first) :: rest := by
  obtain ⟨init, last, hlast⟩ := Text.exists_splitAll_eq_concat '/' before
  obtain ⟨first, rest, hfirst⟩ := List.exists_cons_of_ne_nil (Text.splitAll_ne_nil '/' after)
  refine ⟨init.map String.ofList, rest.map String.ofList, last, first, fun token htoken => ?_⟩
  have hleft : Text.splitAll '/' (before ++ token.toList) = init ++ [last ++ token.toList] :=
    Text.splitAll_append hlast (Text.splitAll_of_not_mem htoken)
  have hall := Text.splitAll_append hleft hfirst
  rw [Path.segments, toList_fill hcut, hall]
  simp

theorem eq_point_or_points {init last : List Char} (hne : token ≠ "")
    (hparts : init ++ token.toList ++ last = ['.', '.']) : token = "." ∨ token = ".." := by
  have hpoints : ∀ x ∈ token.toList, x = '.' := by
    intro x hx
    have hmem : x ∈ ['.', '.'] := by
      rw [← hparts]
      exact List.mem_append_left _ (List.mem_append_right _ hx)
    simpa using hmem
  have hrun := List.eq_replicate_of_mem hpoints
  have hlength : token.toList.length ≤ 2 := by
    have hlen := congrArg List.length hparts
    simp only [List.length_append, List.length_cons, List.length_nil] at hlen
    omega
  have hpos : 0 < token.toList.length := List.length_pos_iff.2 (by simpa using hne)
  obtain hone | htwo : token.toList.length = 1 ∨ token.toList.length = 2 := by omega
  · rw [hone] at hrun
    exact .inl (String.toList_injective hrun)
  · rw [htwo] at hrun
    exact .inr (String.toList_injective hrun)

/-- If a pattern goes down with the slight tokens, it does so with every token. -/
theorem goesDown_fill (hcut : Text.splitAt? placeholder pattern.toList = some (before, after))
    (htoken : '/' ∉ token.toList) (hempty : token = "" → GoesDown ⟨fill pattern ""⟩)
    (hpoint : GoesDown ⟨fill pattern "."⟩) (hpoints : GoesDown ⟨fill pattern ".."⟩) :
    GoesDown ⟨fill pattern token⟩ := by
  by_cases hne : token = ""
  · rw [hne]
    exact hempty hne
  obtain ⟨d, ds, hd⟩ := List.exists_cons_of_ne_nil (by simpa using hne : token.toList ≠ [])
  obtain ⟨init, rest, last, first, hsegs⟩ := exists_segments_fill hcut
  constructor
  · -- the first character is that of the pattern, or of the token
    have habs := hpoint.1
    simp only [Path.isAbsolute, toList_fill hcut, hd] at habs ⊢
    cases before with
    | nil =>
      rw [hd, List.mem_cons, not_or] at htoken
      simpa using Ne.symm htoken.1
    | cons b before => simpa using habs
  · intro hup
    have hother : ∀ part ∈ init ++ rest, part ≠ ".." := by
      rintro part hpart rfl
      refine hpoint.2 ?_
      rw [hsegs "." (by decide)]
      rcases List.mem_append.1 hpart with h | h
      · exact List.mem_append_left _ h
      · exact List.mem_append_right _ (.tail _ h)
    rw [hsegs token htoken] at hup
    rcases List.mem_append.1 hup with h | h
    · exact hother _ (List.mem_append_left _ h) rfl
    rcases List.mem_cons.1 h with h | h
    case inr => exact hother _ (List.mem_append_right _ h) rfl
    have hparts : last ++ token.toList ++ first = ['.', '.'] := by
      rw [← String.toList_ofList (l := last ++ token.toList ++ first), ← h]
      rfl
    rw [← hsegs token htoken] at hup
    rcases eq_point_or_points hne hparts with rfl | rfl
    · exact hpoint.2 hup
    · exact hpoints.2 hup

end Filenames

theorem groupToken_ne_empty (name : String) : groupToken name ≠ "" := by
  unfold groupToken
  split
  · decide
  rename_i hne
  obtain ⟨d, ds, hd⟩ := List.exists_cons_of_ne_nil (by simpa using hne : name.toList ≠ [])
  intro h
  have hnil : (tokenOf name).toList = [] := by rw [h]; rfl
  have hsize := d.utf8Size_pos
  rw [tokenOf, String.toList_ofList, hd, List.flatMap_cons, List.append_eq_nil_iff] at hnil
  split at hnil <;> simp_all

/-- Whether any name can make a pattern absolute or go up is told by the slight tokens, and each of
these is the token of some name. -/
theorem Config.Valid.goesDown_iff (hc : c.Valid) (hp : (kind, pattern) ∈ c.filenames.patterns) :
    (∀ name, GoesDown ⟨Filenames.fill pattern (kind.nameToken name)⟩) ↔
      ∀ token ∈ kind.slightTokens, GoesDown ⟨Filenames.fill pattern token⟩ := by
  obtain ⟨before, after, hcut⟩ := exists_splitAt?_of_valid hc hp
  have hof : tokenOf "" = "" ∧ tokenOf "-" = "." ∧ tokenOf "--" = ".." := by decide +kernel
  have hgroup : groupToken "-" = "." ∧ groupToken "--" = ".." := by decide +kernel
  constructor
  · intro h token htoken
    cases kind <;> simp only [PageKind.slightTokens, List.mem_cons, List.not_mem_nil,
      or_false] at htoken
    · rcases htoken with rfl | rfl
      · exact hgroup.1 ▸ h "-"
      · exact hgroup.2 ▸ h "--"
    · rcases htoken with rfl | rfl
      · exact hgroup.1 ▸ h "-"
      · exact hgroup.2 ▸ h "--"
    · rcases htoken with rfl | rfl | rfl
      · exact hof.1 ▸ h ""
      · exact hof.2.1 ▸ h "-"
      · exact hof.2.2 ▸ h "--"
    · rcases htoken with rfl | rfl | rfl
      · exact hof.1 ▸ h ""
      · exact hof.2.1 ▸ h "-"
      · exact hof.2.2 ▸ h "--"
  · intro h name
    cases kind with
    | namespacePage | packagePage =>
      exact Filenames.goesDown_fill hcut (no_separator_groupToken name)
        (fun hempty => absurd hempty (groupToken_ne_empty name))
        (h "." (by simp [PageKind.slightTokens])) (h ".." (by simp [PageKind.slightTokens]))
    | classPage | sourcePage =>
      exact Filenames.goesDown_fill hcut (no_separator_tokenOf name)
        (fun _ => h "" (by simp [PageKind.slightTokens]))
        (h "." (by simp [PageKind.slightTokens])) (h ".." (by simp [PageKind.slightTokens]))

namespace Site

variable {s : Site} {page : Page}

/-- The link of a page that has no configured name is made from a pattern and the token of a
name. -/
theorem Plans.exists_token (h : s.Plans page) (hsort : page.sort ≠ .common) :
    ∃ kind pattern name, (kind, pattern) ∈ s.links.filenames.patterns ∧
      page.link = Filenames.fill pattern (PageKind.nameToken kind name) := by
  have hpage : ∀ kind name link, s.links.page kind (PageKind.nameToken kind name) = .ok link →
      ∃ kind pattern name, (kind, pattern) ∈ s.links.filenames.patterns ∧
        link = Filenames.fill pattern (PageKind.nameToken kind name) := by
    intro kind name link hlink
    unfold Links.page at hlink
    split at hlink
    · rename_i pattern hp
      exact ⟨kind, pattern, name, Filenames.mem_patterns hp, (Except.ok.inj hlink).symm⟩
    · simp at hlink
  cases h with
  | common _ _ hpage =>
    subst hpage
    exact absurd rfl hsort
  | @ofNamespace g _ h => exact hpage .namespacePage _ _ (namespacePage_eq_ok h).1
  | @ofPackage g _ h => exact hpage .packagePage _ _ (packagePage_eq_ok h).1
  | @ofClass d _ h => exact hpage .classPage _ _ (classPage_eq_ok h).1
  | @ofSource d file above _ _ hfile h =>
    exact hpage .sourcePage _ _ (sourcePage_eq_ok h hfile).1

/-- If the names of the common pages go down and the patterns do with the slight tokens, so do the
links of all planned pages. -/
theorem goesDown_of_mem_pages (hc : s.config.Valid)
    (hnames : s.links.filenames = s.config.filenames)
    (hkeys : ∀ name ∈ s.config.templates.common.keys, GoesDown ⟨name⟩)
    (hpatterns : ∀ kind pattern, (kind, pattern) ∈ s.config.filenames.patterns →
      ∀ token ∈ kind.slightTokens, GoesDown ⟨Filenames.fill pattern token⟩)
    (hpage : .ok page ∈ s.pages) : GoesDown ⟨page.link⟩ := by
  have hplans := plans_of_mem_pages hpage
  by_cases hsort : page.sort = .common
  · exact hkeys _ (hplans.link.1 hsort)
  · obtain ⟨kind, pattern, name, hp, hlink⟩ := hplans.exists_token hsort
    rw [hnames] at hp
    rw [hlink]
    exact (hc.goesDown_iff hp).2 (hpatterns kind pattern hp) name

end Site
end DocSite
