import DocSite.Proofs.Site.Coverage
import DocSite.Proofs.Site.Patterns

namespace DocSite

variable {σ : Type} {s : Site} {r r' : Run σ} {output : Path} {e : Engine σ} {h : Highlighter}
variable {cause : SiteError} {done rest : List PlannedPage} {before types : List Decl} {d : Decl}

namespace Site

/-- A run that nothing hinders comes to the first page that cannot be planned, and stops there. -/
theorem generate_of_append (he : e.Total) (hfiles : s.Unhindered e h output r)
    (hpages : s.pages = done ++ .error cause :: rest) (hdone : firstFault? done = none) :
    ∃ r', Run.advance (Run.renderPage e h output) (s.copied output r).1 done = (r', none) ∧
      s.generate e h output r = (r', some cause) := by
  have hcan : ∀ before page after r₁, done = before ++ .ok page :: after →
      Run.advance (Run.renderPage e h output) (s.copied output r).1 before = (r₁, none) →
      r₁.CanWrite h output page := by
    intro before page after r₁ heq hbefore
    refine hfiles.pages before page (after ++ .error cause :: rest) r₁ ?_ hbefore
    rw [hpages, heq, List.append_assoc, List.cons_append]
  have hnone := Run.advance_renderPage_eq he hcan
  rw [hdone] at hnone
  cases hrun : Run.advance (Run.renderPage e h output) (s.copied output r).1 done with
  | mk r' end' =>
    rw [hrun] at hnone
    obtain rfl : end' = none := hnone
    have hall : Run.advance (Run.renderPage e h output) (s.copied output r).1 s.pages =
        (r', some cause) := by
      rw [hpages, Run.advance_append, hrun]
      exact Run.advance_cons
    refine ⟨r', rfl, ?_⟩
    have hcopied : s.copied output r = ((s.copied output r).1, none) :=
      Prod.ext rfl hfiles.resources
    unfold copied at hcopied hall
    rw [generate, hfiles.isDir, hcopied]
    simp only [Bool.not_true, Bool.false_eq_true, if_false, hall]

theorem ancestry_eq_cycle (hd : d ∈ s.model.types) (hendless : s.model.Endless d) :
    s.index.ancestry d = .error ⟨d.name⟩ :=
  (Index.ancestry_eq_error_iff (mem_index_types.2 hd)).2 ⟨rfl, Index.endless_iff.1 hendless⟩

theorem exists_ancestry_of_not_endless (hd : d ∈ s.model.types) (hend : ¬s.model.Endless d) :
    ∃ tree, s.index.ancestry d = .ok tree := by
  obtain ⟨line, hline⟩ := not_not.1 fun hnone => hend (Index.endless_iff.2 hnone)
  exact ⟨line, (Index.ancestry_eq_ok_iff (mem_index_types.2 hd)).2 hline⟩

theorem viewLack?_of_patterns
    (hpatterns : ∀ kind, ∃ pattern, s.links.filenames.get? kind = some pattern) :
    s.links.viewLack? = none := by
  obtain ⟨_, hclass⟩ := hpatterns .classPage
  obtain ⟨_, hsource⟩ := hpatterns .sourcePage
  simp [Links.viewLack?, hclass, hsource]

/-- With all patterns, the pages of types whose parents end can be planned, and so can all pages
before them. -/
theorem firstFault?_pagesWith
    (hpatterns : ∀ kind, ∃ pattern, s.links.filenames.get? kind = some pattern)
    (hmem : ∀ d ∈ types, d ∈ s.model.types) (hend : ∀ d ∈ types, ¬s.model.Endless d) :
    firstFault? (s.pagesWith types) = none := by
  have hviews := viewLack?_of_patterns hpatterns
  have hlacks : ∀ kind, ¬s.Lacks kind := by
    rintro kind ⟨-, hnone⟩
    obtain ⟨pattern, hpattern⟩ := hpatterns kind
    simp [hnone] at hpattern
  have htypes : firstFault? (types.flatMap (s.typePages s.index s.index.sources)) = none := by
    refine List.findSome?_eq_none_iff.2 fun p hp => ?_
    obtain ⟨d, hd, hp⟩ := List.mem_flatMap.1 hp
    obtain ⟨tree, htree⟩ := exists_ancestry_of_not_endless (hmem d hd) (hend d hd)
    exact fault?_typePages hviews htree hp
  rw [pagesWith, firstFault?_append, firstFault?_append, firstFault?_append,
    firstFault?_commonPages (exists_partition hviews _),
    firstFault?_map needs_namespacePage (fault?_namespacePage hviews), if_neg (hlacks _),
    firstFault?_map needs_packagePage (fault?_packagePage hviews), if_neg (hlacks _), htypes]
  rfl

/-- The pages of a type with endless parents come after those of the types before it. -/
theorem pages_eq_append_cycle {after : List Decl} (htypes : s.index.types = before ++ d :: after)
    (hendless : s.model.Endless d) :
    ∃ rest, s.pages = s.pagesWith before ++ .error (.parentCycle ⟨d.name⟩) :: rest := by
  have hd : d ∈ s.model.types := mem_index_types.1 (by simp [htypes])
  refine ⟨after.flatMap (s.typePages s.index s.index.sources), ?_⟩
  rw [pages_eq_pagesWith, htypes, pagesWith_append, List.flatMap_cons,
    typePages_eq_cycle (ancestry_eq_cycle hd hendless), List.singleton_append]

/-- The source entries of the first types are source entries of all. -/
theorem mem_sources_of_append {after : List Decl} {q : Decl × Path}
    (htypes : s.index.types = before ++ after) (hq : q ∈ Index.sourcesFrom {} before) :
    q ∈ s.index.sources := by
  obtain ⟨hfile, hseen, ahead, behind, heq, hfirst⟩ := Index.mem_sourcesFrom_iff.1 hq
  refine Index.mem_sourcesFrom_iff.2 ⟨hfile, hseen, ahead, behind ++ after, ?_, hfirst⟩
  rw [htypes, heq, List.append_assoc, List.cons_append]

/-- With the pages of the first types, the source pages of their declaring files are written. -/
theorem exists_source_of_after {after : List Decl} {t : FileTree}
    (htypes : s.index.types = before ++ after)
    (hafter : Run.After output s.config t (s.pagesWith before) r') {p : Decl} (hp : p ∈ before)
    {file : Path} (hfile : p.sourceFile? = some file) :
    ∃ w ∈ r'.written, w.sort = .ofSource ∧ s.links.sourcePage file = .ok w.link := by
  -- the file is introduced by one of these types, whose page and source page were planned
  obtain ⟨⟨first, spelling⟩, hentry, hsame⟩ :=
    (Index.exists_source {} hp hfile).resolve_left (by simp)
  obtain ⟨hfirst, hspelling⟩ := Index.mem_sourcesFrom hentry
  have hentry := mem_sources_of_append htypes hentry
  have hplanned : ∀ planned ∈ s.typePages s.index s.index.sources first,
      planned ∈ s.pagesWith before := fun planned hin =>
    List.mem_append_right _ (List.mem_flatMap.2 ⟨first, hfirst, hin⟩)
  obtain ⟨above, -, habove, -⟩ := hafter.complete _ (hplanned _ classPage_mem_typePages)
  obtain ⟨page, w, hpage, hw, source, hof⟩ :=
    hafter.complete _ (hplanned _ (sourcePage_mem_typePages hentry habove))
  obtain ⟨hlink, hsort, -⟩ := sourcePage_eq_ok hpage hspelling
  rw [Links.sourcePage_eq_of_samePlace hsame] at hlink
  exact ⟨w, hw, by rw [hof, hsort], by rw [hof, hlink]⟩

/-- What a run has done when it stops before the page of a type: it has rendered and written all
pages with fixed names, those of the groups and those of the types before, and no others. -/
structure StopsAfter (s : Site) (e : Engine σ) (h : Highlighter) (output : Path)
    (before : List Decl) (r r' : Run σ) : Prop where
  /-- It has come just as far as these pages take it. -/
  rendered : Run.advance (Run.renderPage e h output) (s.copied output r).1 (s.pagesWith before) =
    (r', none)
  /-- It has written them as they were planned, in their order. -/
  written : WrittenAs (s.pagesWith before) r'.written
  /-- Their files are there. -/
  isFile : ∀ w ∈ r'.written, r'.tree.isFile (output.join ⟨w.link⟩) = true
  /-- The pages with fixed names, of the namespaces and of the packages are complete. -/
  common : List.Forall₂ s.ShowsCommon s.config.templates.common (pagesOf .common r'.written)
  namespaces : List.Forall₂ s.ShowsNamespace s.index.namespaces (pagesOf .ofNamespace r'.written)
  packages : List.Forall₂ s.ShowsPackage s.index.packages (pagesOf .ofPackage r'.written)
  /-- The pages of types are those of the types before. -/
  classes : List.Forall₂ s.ShowsClass before (pagesOf .ofClass r'.written)
  /-- Their declaring files have their source pages. -/
  sources : ∀ p ∈ before, ∀ file, p.sourceFile? = some file →
    ∃ w ∈ r'.written, w.sort = .ofSource ∧ s.links.sourcePage file = .ok w.link

theorem stopsAfter_of_advance {after : List Decl} (hs : r.tree.Sorted) (hfresh : r.written = [])
    (hcopied : (s.copied output r).2 = none) (htypes : s.index.types = before ++ after)
    (hrun : Run.advance (Run.renderPage e h output) (s.copied output r).1 (s.pagesWith before) =
      (r', none)) : s.StopsAfter e h output before r r' := by
  have hmem : ∀ d ∈ before, d ∈ s.index.types := fun d hd => by simp [htypes, hd]
  have hafter : Run.After output s.config r.tree (s.pagesWith before) r' :=
    (after_copies hs hfresh (Prod.ext rfl hcopied)).advance_renderPage hrun
  have hfits : ([] : List WrittenPage).length + (s.pagesWith before).length ≤ s.pageCount := by
    have hle := s.length_pages_le
    rw [pages_eq_pagesWith, htypes, pagesWith_append, List.length_append] at hle
    rw [List.length_nil, Nat.zero_add]
    exact (Nat.le_add_right _ _).trans hle
  obtain ⟨all, rest, ws, hpages, hws, hcounted, hrest⟩ :=
    (s.counted_copies output r).advance_renderPage hfits hrun
  rw [hrest rfl, List.append_nil] at hpages
  obtain rfl : r'.written = ws := by
    rw [hcounted.written_eq, hfresh, List.nil_append, List.nil_append]
  have hwritten : WrittenAs (s.pagesWith before) r'.written := hpages ▸ hws
  obtain ⟨hcommon, hnamespaces, hpackages, hclasses, -⟩ := forall₂_pagesOf_pagesWith hmem hwritten
  exact ⟨hrun, hwritten, hafter.isFile, hcommon, hnamespaces, hpackages, hclasses,
    fun p hp file hfile => exists_source_of_after htypes hafter hp hfile⟩

/-- A run stops before the page of the first type with endless parents, and names that type. -/
theorem stopsAfter_of_endless {after : List Decl}
    (hpatterns : ∀ kind, ∃ pattern, s.links.filenames.get? kind = some pattern) (he : e.Total)
    (hfiles : s.Unhindered e h output r) (hs : r.tree.Sorted) (hfresh : r.written = [])
    (htypes : s.index.types = before ++ d :: after) (hbefore : ∀ p ∈ before, ¬s.model.Endless p)
    (hendless : s.model.Endless d) :
    ∃ r', s.generate e h output r = (r', some (.parentCycle ⟨d.name⟩)) ∧
      s.StopsAfter e h output before r r' := by
  have hmem : ∀ p ∈ before, p ∈ s.model.types := fun p hp =>
    mem_index_types.1 (by simp [htypes, hp])
  have hdone : firstFault? (s.pagesWith before) = none :=
    firstFault?_pagesWith hpatterns hmem hbefore
  obtain ⟨rest, hpages⟩ := pages_eq_append_cycle htypes hendless
  obtain ⟨r', hrun, hgenerate⟩ := generate_of_append he hfiles hpages hdone
  exact ⟨r', hgenerate, stopsAfter_of_advance hs hfresh hfiles.resources htypes hrun⟩

/-- If the parents of some type never end, there is a first such type in the order of the index. -/
theorem exists_first_endless (hd : d ∈ s.model.types) (hendless : s.model.Endless d) :
    ∃ before first after, s.index.types = before ++ first :: after ∧
      (∀ p ∈ before, ¬s.model.Endless p) ∧ s.model.Endless first := by
  classical
  obtain ⟨first, hfirst⟩ : ∃ first,
      s.index.types.find? (fun p => decide (s.model.Endless p)) = some first := by
    rw [← Option.isSome_iff_exists, List.find?_isSome]
    exact ⟨d, mem_index_types.2 hd, by simpa using hendless⟩
  obtain ⟨hfound, before, after, htypes, hbefore⟩ := List.find?_eq_some_iff_append.1 hfirst
  exact ⟨before, first, after, htypes, fun p hp => by simpa using hbefore p hp,
    by simpa using hfound⟩

/-- Endless parents stop a run, and with all patterns they alone do, if the engine always has a text
and the files refuse nothing. The run stops for the first such type in the order of the index, when
the pages before that of the type have been written, and names it. -/
theorem parentCycle_of_generate
    (hpatterns : ∀ kind, ∃ pattern, s.links.filenames.get? kind = some pattern) (he : e.Total)
    (hfiles : s.Unhindered e h output r) (hs : r.tree.Sorted) (hfresh : r.written = []) :
    ((∃ cycle, (s.generate e h output r).2 = some (.parentCycle cycle)) ↔
      ∃ d ∈ s.model.types, s.model.Endless d) ∧
    ∀ before d after, s.index.types = before ++ d :: after →
      (∀ p ∈ before, ¬s.model.Endless p) → s.model.Endless d →
      ∃ r', s.generate e h output r = (r', some (.parentCycle ⟨d.name⟩)) ∧
        s.StopsAfter e h output before r r' := by
  refine ⟨⟨?_, ?_⟩, fun before d after htypes hbefore hendless =>
    stopsAfter_of_endless hpatterns he hfiles hs hfresh htypes hbefore hendless⟩
  · rintro ⟨cycle, hcycle⟩
    by_contra hnone
    have hfault := firstFault?_pagesWith hpatterns (fun d hd => mem_index_types.1 hd)
      fun d hd hendless => hnone ⟨d, mem_index_types.1 hd, hendless⟩
    rw [generate_cause hfiles.isDir hfiles.resources, Run.advance_renderPage_eq he hfiles.pages,
      pages_eq_pagesWith, hfault] at hcycle
    contradiction
  · rintro ⟨d, hd, hendless⟩
    obtain ⟨before, first, after, htypes, hbefore, hfirst⟩ := exists_first_endless hd hendless
    obtain ⟨r', hgenerate, -⟩ :=
      stopsAfter_of_endless hpatterns he hfiles hs hfresh htypes hbefore hfirst
    exact ⟨_, by rw [hgenerate]⟩

def strayType : Decl := { onlyType with name := "N\\B", shortName := "B", parent := some "N\\C" }

def knotType : Decl := { onlyType with name := "N\\C", shortName := "C", parent := some "N\\C" }

/-- The small site with these two types after its own. -/
def tangled : Site :=
  { small with model := ⟨⟨"src"⟩, [onlyType, strayType, knotType], by decide⟩ }

theorem index_tangled : tangled.index =
    ⟨[onlyType, strayType, knotType], [⟨"N", [onlyType, strayType, knotType], ["p"]⟩],
      [⟨"p", [onlyType, strayType, knotType], ["N"]⟩]⟩ := by
  have hfirsts : Index.firsts [] tangled.model.types = [onlyType, strayType, knotType] := by decide
  have hname : Index.sortBy Decl.name [onlyType, strayType, knotType] =
      [onlyType, strayType, knotType] := List.mergeSort_of_pairwise (by decide)
  have hshort : Index.sortBy Decl.shortName [onlyType, strayType, knotType] =
      [onlyType, strayType, knotType] := List.mergeSort_of_pairwise (by decide)
  have hns : Index.distinctNames ["N", "N", "N"] = ["N"] :=
    congrArg Text.dropRepeats (List.mergeSort_of_pairwise (by decide))
  have hpackage : Index.distinctNames ["p", "p", "p"] = ["p"] :=
    congrArg Text.dropRepeats (List.mergeSort_of_pairwise (by decide))
  rw [index, Index.ofTypes, hfirsts, hname]
  have hkeys : ∀ d ∈ [onlyType, strayType, knotType], d.ns = "N" ∧ d.package = "p" := by decide
  simp only [List.mem_cons, forall_eq_or_imp, List.not_mem_nil, false_implies, implies_true,
    and_true] at hkeys
  simp [Index.groupBy, hns, hpackage, hname, hshort, hkeys, List.filter]

theorem generate_tangled : (tangled.generate blank .plain ⟨"out"⟩ freshRun).2 =
    some (.parentCycle ⟨"N\\B"⟩) := by
  simp only [generate, pages, pageCount, index_tangled]
  decide +kernel

theorem not_endless_onlyType : ¬tangled.model.Endless onlyType := by
  rintro ⟨line, hstart, hparent⟩
  have hnone := (hparent 0).2
  simp [hstart, onlyType] at hnone

theorem endless_strayType : tangled.model.Endless strayType := by
  refine ⟨fun n => if n = 0 then strayType else knotType, rfl, fun n => ⟨?_, ?_⟩⟩
  · simp [tangled]
  · cases n <;> rfl

theorem parentCycle_of_generate_tangled : blank.Total ∧
    tangled.Unhindered blank .plain ⟨"out"⟩ freshRun ∧ ∃ r',
      tangled.generate blank .plain ⟨"out"⟩ freshRun = (r', some (.parentCycle ⟨"N\\B"⟩)) ∧
      tangled.StopsAfter blank .plain ⟨"out"⟩ [onlyType] freshRun r' := by
  have hpatterns : ∀ kind, ∃ pattern, tangled.links.filenames.get? kind = some pattern := by
    rintro (_ | _ | _ | _) <;> exact ⟨_, rfl⟩
  have htotal : blank.Total := fun _ _ _ _ => ⟨_, _, rfl⟩
  have hfiles : tangled.Unhindered blank .plain ⟨"out"⟩ freshRun := by
    refine unhindered_of_generate fun cause hcause houtside => ?_
    obtain rfl := Option.some.inj (hcause.symm.trans generate_tangled)
    exact houtside
  obtain ⟨-, hstops⟩ := parentCycle_of_generate hpatterns htotal hfiles freshRun_sorted rfl
  refine ⟨htotal, hfiles, hstops [onlyType] strayType [knotType] ?_ ?_ endless_strayType⟩
  · rw [index_tangled, List.singleton_append]
  · rintro p hp
    obtain rfl := List.mem_singleton.1 hp
    exact not_endless_onlyType

end Site
end DocSite
