import DocSite.Proofs.Site.Coverage

namespace DocSite.Site

variable {s : Site} {ws : List WrittenPage}

/-- The number of distinct names of the types by a key, without the empty name. -/
def distinctKeys (m : Model) (key : Decl → String) : Nat :=
  ((m.types.map key).filter (· ≠ "")).dedup.length

/-- The number of places in which user-defined types are declared. -/
def distinctFiles (m : Model) : Nat :=
  ((m.types.filterMap Decl.sourceFile?).map Path.components).dedup.length

/-- The number of pages that a model calls for. -/
def expectedPages (s : Site) : Nat :=
  s.config.templates.common.length + distinctKeys s.model Decl.ns +
    distinctKeys s.model Decl.package + s.model.types.length + distinctFiles s.model

theorem length_groupBy {key other order : Decl → String} :
    (Index.groupBy key other order s.index.types).length = distinctKeys s.model key := by
  have hnames : Text.Enumerates ((Index.groupBy key other order s.index.types).map Group.name)
      (· ∈ (s.model.types.map key).filter (· ≠ "")) := by
    obtain ⟨hascending, hmem⟩ := Index.enumerates_groupBy key other order s.index.types
    refine ⟨hascending, fun name => ?_⟩
    rw [hmem, List.mem_filter, List.mem_map, and_comm]
    simp only [mem_index_types, ne_eq, decide_not, Bool.not_eq_true', decide_eq_false_iff_not]
  rw [← List.length_map (f := Group.name), hnames.length_eq, distinctKeys]

/-- A run announces the number of pages that the model calls for. -/
theorem pageCount_eq (s : Site) : s.pageCount = s.expectedPages := by
  have hperm := Index.types_perm s.model
  have hnamespaces : s.index.namespaces.length = distinctKeys s.model Decl.ns := length_groupBy
  have hpackages : s.index.packages.length = distinctKeys s.model Decl.package := length_groupBy
  have htypes : s.index.types.length = s.model.types.length := hperm.length_eq
  have hsources : s.index.sources.length = distinctFiles s.model := by
    rw [Index.length_sources]
    exact ((hperm.filterMap _).map _).dedup.length_eq
  rw [pageCount, expectedPages, hnamespaces, hpackages, htypes, hsources]

theorem length_eq_pagesOf (ws : List WrittenPage) : ws.length =
    (pagesOf .common ws).length + (pagesOf .ofNamespace ws).length +
      (pagesOf .ofPackage ws).length + (pagesOf .ofClass ws).length +
      (pagesOf .ofSource ws).length := by
  induction ws with
  | nil => rfl
  | cons w ws ih =>
    rw [List.length_cons, ih]
    unfold pagesOf
    cases hsort : w.sort <;> simp [hsort] <;> omega

/-- If no page is left out, as many are written as were announced. -/
theorem length_of_writtenAs (h : WrittenAs s.pages ws) : ws.length = s.pageCount := by
  obtain ⟨hcommon, hnamespace, hpackage, hclass, hsource⟩ := forall₂_pagesOf h
  rw [length_eq_pagesOf, ← hcommon.length_eq, ← hnamespace.length_eq, ← hpackage.length_eq,
    ← hclass.length_eq, ← hsource.length_eq]
  rfl

/-- Where the source pages of a run stand, and which files they are of. -/
structure Mirrors (s : Site) (ws : List WrittenPage) : Prop where
  /-- The source pages are those of the declaring files, one for each. -/
  pages : List.Forall₂ s.ShowsSource s.index.sources (pagesOf .ofSource ws)
  /-- Each declaring file is introduced once, however many types share it. -/
  files : ∀ d ∈ s.model.types, ∀ file, d.sourceFile? = some file →
    ∃! q, q ∈ s.index.sources ∧ q.2.SamePlace file
  /-- It is introduced by the first type that is declared in it. -/
  first : ∀ q, q ∈ s.index.sources ↔ s.index.Introduces q.1 q.2
  /-- The page of that type is followed by the source page. -/
  blocks : ∃ head blocks, ws = head ++ blocks.flatten ∧ pagesOf .ofSource head = [] ∧
    List.Forall₂ s.Block s.index.types blocks

theorem mirrors_of_writtenAs (h : WrittenAs s.pages ws) : s.Mirrors ws := by
  obtain ⟨-, -, -, -, hsource⟩ := forall₂_pagesOf h
  refine ⟨hsource, fun d hd file hfile => ?_, fun q => Index.mem_sources_iff, ?_⟩
  · exact Index.existsUnique_source (mem_index_types.2 hd) hfile
  · obtain ⟨commons, namespaces, packages, blocks, rfl, hcommons, hnamespaces, hpackages,
      hblocks⟩ := exists_parts (fun _ hd => hd) (s.pages_eq_pagesWith ▸ h)
    refine ⟨commons ++ namespaces ++ packages, blocks, rfl, ?_, hblocks⟩
    rw [pagesOf_append, pagesOf_append,
      pagesOf_eq_ite _ (forall₂_commonPages hcommons) fun _ _ h => h.sort,
      pagesOf_eq_ite _ (forall₂_namespacePages hnamespaces) fun _ _ h => h.sort,
      pagesOf_eq_ite _ (forall₂_packagePages hpackages) fun _ _ h => h.sort]
    rfl

/-- Exact accounting. A run that ends without an error has told its observer every number from zero
up to the announced one and then that it is over, and it has counted and written that many pages.
One that fails although its output is there has told the number of each page that it wrote, and
never that it is over. The pages are those for which the engine was given a context. One without an
output has done nothing. -/
theorem accounting_of_generate {σ : Type} {r r' : Run σ} {e : Engine σ} {h : Highlighter}
    {output : Path} {cause : Option SiteError} (hobs : r.progress.observed = true)
    (hrun : s.generate e h output r = (r', cause)) :
    (cause = none → ∃ ws, r'.written = r.written ++ ws ∧ ws.length = s.expectedPages ∧
      r'.calls = r.calls ++ Run.updates s.expectedPages s.expectedPages ++ [.finish] ∧
      r'.stats.pages = r.stats.pages + s.expectedPages ∧ s.Mirrors ws ∧
      ∃ r₁, Run.Renders e output (s.copied output r).1 ws r₁) ∧
    (cause ≠ none → r.tree.isDir output = true → ∃ ws, r'.written = r.written ++ ws ∧
      ws.length ≤ s.expectedPages ∧
      r'.calls = r.calls ++ Run.updates s.expectedPages ws.length ∧
      ∃ r₁, Run.Renders e output (s.copied output r).1 ws r₁) ∧
    (r.tree.isDir output = false → r' = r ∧ cause = some (.outputMissing output)) := by
  rw [← pageCount_eq]
  cases hdir : r.tree.isDir output with
  | false =>
    have hmissing : s.generate e h output r = (r, some (.outputMissing output)) := by
      rw [generate, if_pos (by simp [hdir])]
    obtain ⟨rfl, rfl⟩ := Prod.mk.inj (hrun.symm.trans hmissing)
    exact ⟨fun h => by simp at h, fun _ h => by simp at h, fun _ => ⟨rfl, rfl⟩⟩
  | true =>
    obtain ⟨done, rest, ws, r₁, hpages, hws, hcounted, hend⟩ := counted_of_generate hdir hrun
    refine ⟨?_, ?_, fun h => by simp at h⟩
    · rintro rfl
      obtain ⟨-, rfl, rfl⟩ | ⟨hne, -⟩ := hend
      · rw [List.append_nil] at hpages
        have hall : WrittenAs s.pages ws := hpages ▸ hws
        have hlength := length_of_writtenAs hall
        have hobserved := hcounted.observed_eq.trans hobs
        have hcalls := hcounted.calls_eq hobs
        refine ⟨ws, hcounted.written_eq, hlength, ?_, ?_, mirrors_of_writtenAs hall,
          renders_of_generate hrun hcounted.written_eq⟩
        · rw [hlength] at hcalls
          simp [Run.finish, Progress.finish, Progress.report, hobserved, hcalls]
        · rw [← hlength]
          exact hcounted.pages_eq
      · contradiction
    · intro hne _
      obtain ⟨rfl, -, -⟩ | ⟨-, rfl⟩ := hend
      · contradiction
      · refine ⟨ws, hcounted.written_eq, ?_, hcounted.calls_eq hobs,
          renders_of_generate hrun hcounted.written_eq⟩
        rw [← hws.length_eq]
        have hle := s.length_pages_le
        rw [hpages, List.length_append] at hle
        omega

def observedRun : Run Unit := { freshRun with progress := .fresh true }

theorem generate_observed_eq_none :
    (small.generate blank .plain ⟨"out"⟩ observedRun).2 = none := by
  simp only [generate, pages, pageCount, index_small]
  decide +kernel

theorem accounting_of_generate_small : observedRun.progress.observed = true ∧
    ∃ r', small.generate blank .plain ⟨"out"⟩ observedRun = (r', none) ∧
      r'.calls = Run.updates 5 5 ++ [.finish] ∧ r'.stats.pages = 5 ∧ small.Mirrors r'.written ∧
      ∃ r₁, Run.Renders blank ⟨"out"⟩ (small.copied ⟨"out"⟩ observedRun).1 r'.written r₁ := by
  have hok : small.generate blank .plain ⟨"out"⟩ observedRun = (_, none) :=
    Prod.ext rfl generate_observed_eq_none
  have hfive : small.expectedPages = 5 := by decide +kernel
  obtain ⟨ws, hwritten, -, hcalls, hpages, hmirrors, hrenders⟩ :=
    (accounting_of_generate rfl hok).1 rfl
  rw [hfive] at hcalls hpages
  refine ⟨rfl, _, hok, hcalls, hpages, ?_⟩
  rw [hwritten]
  exact ⟨hmirrors, hrenders⟩

end DocSite.Site
