import DocSite.Proofs.InStep
import DocSite.Proofs.Site.Groups
import DocSite.Proofs.Site.Page
import DocSite.Proofs.Site.Run

namespace DocSite

/-- The pages were written as they were planned, in the same order. -/
abbrev WrittenAs (planned : List PlannedPage) (written : List WrittenPage) : Prop :=
  List.Forall₂ (fun p w => ∃ page, p = .ok page ∧ w.Of page) planned written

/-- A unit that was announced is counted and reported. -/
theorem Progress.increment_of_lt {p : Progress} (hlt : p.current < p.total) : p.increment =
    (⟨p.total, p.current + 1, p.observed, hlt⟩,
      p.report (.update (p.current + 1) p.total)) := by
  rw [increment, dif_pos hlt]
  rfl

namespace Run

variable {σ : Type} {r r₁ r₂ : Run σ} {output : Path} {e : Engine σ} {h : Highlighter}
variable {total : Nat} {ws : List WrittenPage}

/-- No page was written or counted in between. -/
structure Keeps (r r' : Run σ) : Prop where
  progress : r'.progress = r.progress
  calls : r'.calls = r.calls
  pages : r'.stats.pages = r.stats.pages
  written : r'.written = r.written

theorem Keeps.refl (r : Run σ) : Keeps r r := ⟨rfl, rfl, rfl, rfl⟩

theorem Keeps.trans (h₁ : Keeps r r₁) (h₂ : Keeps r₁ r₂) : Keeps r r₂ :=
  ⟨h₂.progress.trans h₁.progress, h₂.calls.trans h₁.calls, h₂.pages.trans h₁.pages,
    h₂.written.trans h₁.written⟩

theorem ensureParent_keeps (r : Run σ) (path : Path) : Keeps r (r.ensureParent path).1 := by
  unfold ensureParent
  split
  · exact .refl r
  · exact ⟨rfl, rfl, rfl, rfl⟩

theorem copyEntry_keeps (r : Run σ) (target : Path) (f : FileTree.Found) :
    Keeps r (copyEntry target r f).1 := by
  have hends := copyEntry_ends target r f
  have hparent := ensureParent_keeps r (FileTree.Found.pathBelow target f.names)
  generalize copyEntry target r f = a at hends ⊢
  cases hends with
  | skipped => exact .refl r
  | homeless h | refused h => rwa [h] at hparent
  | copied _ h =>
    rw [h] at hparent
    exact hparent.trans ⟨rfl, rfl, rfl, rfl⟩

theorem copyResource_keeps (r : Run σ) (resource : Resource) :
    Keeps r (copyResource output r resource).1 := by
  unfold copyResource
  split
  · exact .refl r
  · exact advance_invariant (.refl r) fun f _ r₁ h₁ => h₁.trans (copyEntry_keeps r₁ _ f)

theorem writePage_keeps (r : Run σ) (output : Path) (link text : String) :
    Keeps r (r.writePage output link text).1 := by
  have hends := writePage_ends output r link text
  have hparent := ensureParent_keeps r (output.join ⟨link⟩)
  generalize r.writePage output link text = a at hends ⊢
  cases hends with
  | homeless h | refused h => rwa [h] at hparent
  | written h =>
    rw [h] at hparent
    exact hparent.trans ⟨rfl, rfl, rfl, rfl⟩

/-- A page is written and counted, or the run stops and nothing was counted. -/
theorem renderPage_cases (e : Engine σ) (h : Highlighter) (output : Path) (r : Run σ)
    (p : PlannedPage) :
    (∃ page context r₁, p = .ok page ∧ WrittenPage.Of ⟨page.sort, page.link, context⟩ page ∧
      Keeps r r₁ ∧ renderPage e h output r p = (r₁.note page context, none)) ∨
    ∃ r₁ cause, Keeps r r₁ ∧ renderPage e h output r p = (r₁, some cause) := by
  have hends := renderPage_ends e h output r p
  generalize renderPage e h output r p = a at hends ⊢
  cases hends with
  | unplanned | unread => exact .inr ⟨r, _, .refl r, rfl⟩
  | @unrendered page context cause engine =>
    exact .inr ⟨{ r with engine }, _, ⟨rfl, rfl, rfl, rfl⟩, rfl⟩
  | @unwritten page context text engine r₁ cause _ _ hwrite =>
    have hkeeps := writePage_keeps { r with engine } output page.link text
    rw [hwrite] at hkeeps
    exact .inr ⟨r₁, cause, ⟨hkeeps.progress, hkeeps.calls, hkeeps.pages, hkeeps.written⟩, rfl⟩
  | @written page context text engine r₁ hcontext _ hwrite =>
    have hkeeps := writePage_keeps { r with engine } output page.link text
    rw [hwrite] at hkeeps
    exact .inl ⟨page, context, r₁, rfl, fullContext_eq_ok hcontext,
      ⟨hkeeps.progress, hkeeps.calls, hkeeps.pages, hkeeps.written⟩, rfl⟩

/-- What an observer is told while the first pages of all are written. -/
def updates (total done : Nat) : List ProgressCall :=
  (List.range (done + 1)).map fun current => .update current total

theorem updates_succ (total done : Nat) :
    updates total (done + 1) = updates total done ++ [.update (done + 1) total] := by
  rw [updates, List.range_succ, List.map_append, updates, List.map_singleton]

/-- What a run has counted since it was started: so many pages of the announced number. -/
structure Counted (r : Run σ) (total : Nat) (ws : List WrittenPage) (r' : Run σ) : Prop where
  total_eq : r'.progress.total = total
  current_eq : r'.progress.current = ws.length
  observed_eq : r'.progress.observed = r.progress.observed
  calls_eq : r.progress.observed = true → r'.calls = r.calls ++ updates total ws.length
  pages_eq : r'.stats.pages = r.stats.pages + ws.length
  written_eq : r'.written = r.written ++ ws

theorem counted_start (r : Run σ) (total : Nat) : Counted r total [] (r.start total) where
  total_eq := rfl
  current_eq := rfl
  observed_eq := rfl
  calls_eq hobs := by simp [start, Progress.start, Progress.report, hobs, updates]
  pages_eq := rfl
  written_eq := (List.append_nil _).symm

theorem Counted.keeps (hc : Counted r total ws r₁) (hk : Keeps r₁ r₂) :
    Counted r total ws r₂ := by
  obtain ⟨htotal, hcurrent, hobserved, hcalls, hpages, hwritten⟩ := hc
  exact ⟨hk.progress ▸ htotal, hk.progress ▸ hcurrent, hk.progress ▸ hobserved,
    fun hobs => hk.calls.trans (hcalls hobs), hk.pages.trans hpages, hk.written.trans hwritten⟩

theorem pages_count (stats : Stats) (sort : PageSort) :
    (stats.count sort).pages = stats.pages + 1 := by
  cases sort <;> simp only [Stats.count, Stats.pages] <;> omega

/-- A page that was announced is counted when it is noted. -/
theorem Counted.note (hc : Counted r total ws r₁) (hlt : ws.length < total) (page : Page)
    (context : PageContext) :
    Counted r total (ws ++ [⟨page.sort, page.link, context⟩]) (r₁.note page context) := by
  obtain ⟨htotal, hcurrent, hobserved, hcalls, hpages, hwritten⟩ := hc
  have hnext : r₁.progress.current < r₁.progress.total := by omega
  have hlength : (ws ++ [(⟨page.sort, page.link, context⟩ : WrittenPage)]).length =
      ws.length + 1 := by simp
  have hincrement := Progress.increment_of_lt hnext
  have hprogress : (r₁.note page context).progress = _ := congrArg Prod.fst hincrement
  have hreport : (r₁.note page context).calls = r₁.calls ++ r₁.progress.report
      (.update (r₁.progress.current + 1) r₁.progress.total) :=
    congrArg (fun q : Progress × List ProgressCall => r₁.calls ++ q.2) hincrement
  constructor
  case total_eq => rw [hprogress]; exact htotal
  case current_eq => rw [hprogress, hlength, ← hcurrent]
  case observed_eq => rw [hprogress]; exact hobserved
  case calls_eq =>
    intro hobs
    rw [hreport, Progress.report, if_pos (hobserved.trans hobs), hcalls hobs, hlength,
      updates_succ, hcurrent, htotal, List.append_assoc]
  case pages_eq =>
    have hcount : (r₁.note page context).stats.pages = r₁.stats.pages + 1 := pages_count ..
    rw [hcount, hlength, hpages, Nat.add_assoc]
  case written_eq => rw [note_written, hwritten, List.append_assoc]

/-- However the rendering of a list of pages ends, the pages that were written are the first of the
list. -/
theorem Counted.advance_renderPage {items : List PlannedPage} {cause : Option SiteError}
    (hc : Counted r total ws r₁) (hle : ws.length + items.length ≤ total)
    (hrun : advance (renderPage e h output) r₁ items = (r₂, cause)) :
    ∃ done rest vs, items = done ++ rest ∧ WrittenAs done vs ∧ Counted r total (ws ++ vs) r₂ ∧
      (cause = none → rest = []) := by
  induction items generalizing ws r₁ with
  | nil =>
    obtain ⟨rfl, -⟩ := Prod.mk.inj hrun
    exact ⟨[], [], [], rfl, .nil, by rwa [List.append_nil], fun _ => rfl⟩
  | cons p items ih =>
    rw [List.length_cons] at hle
    rw [advance_cons] at hrun
    rcases renderPage_cases e h output r₁ p with
      ⟨page, context, r', rfl, hof, hkeeps, heq⟩ | ⟨r', cause', hkeeps, heq⟩
    · rw [heq] at hrun
      have hnext := (hc.keeps hkeeps).note (by omega) page context
      have hfits : (ws ++ [(⟨page.sort, page.link, context⟩ : WrittenPage)]).length +
          items.length ≤ total := by
        rw [List.length_append, List.length_singleton]
        omega
      obtain ⟨done, rest, vs, rfl, hvs, hall, hrest⟩ := ih hnext hfits hrun
      refine ⟨.ok page :: done, rest, _ :: vs, rfl, .cons ⟨page, rfl, hof⟩ hvs, ?_, hrest⟩
      rwa [List.append_assoc, List.singleton_append] at hall
    · rw [heq] at hrun
      obtain ⟨rfl, rfl⟩ := Prod.mk.inj hrun
      exact ⟨[], p :: items, [], rfl, .nil, by simpa using hc.keeps hkeeps, by simp⟩

/-- Between two states of a run these pages were written, each in its turn: the engine was given the
context of the page, and the text that it gave was written where the link leads below the output. -/
inductive Renders (e : Engine σ) (output : Path) : Run σ → List WrittenPage → Run σ → Prop
  | done (r : Run σ) : Renders e output r [] r
  | page {r r₁ r' : Run σ} {page : Page} {context : PageContext} {text : String} {engine : σ}
      {ws : List WrittenPage}
      (hrender : e.render r.tree page.template context r.engine = (.ok text, engine))
      (hwrite : { r with engine }.writePage output page.link text = (r₁, none))
      (hnext : Renders e output (r₁.note page context) ws r') :
      Renders e output r (⟨page.sort, page.link, context⟩ :: ws) r'

/-- What a run notes while it renders is what the engine was given. -/
theorem exists_renders {items : List PlannedPage} {cause : Option SiteError}
    (hrun : advance (renderPage e h output) r items = (r₂, cause)) :
    ∃ ws r₁, r₂.written = r.written ++ ws ∧ Renders e output r ws r₁ := by
  induction items generalizing r with
  | nil =>
    obtain ⟨rfl, -⟩ := Prod.mk.inj hrun
    exact ⟨[], r, (List.append_nil _).symm, .done r⟩
  | cons p items ih =>
    have hends := renderPage_ends e h output r p
    have hcases := renderPage_cases e h output r p
    rw [advance_cons] at hrun
    generalize renderPage e h output r p = a at hends hcases hrun
    cases hends with
    | unplanned | unread | unrendered | unwritten =>
      obtain ⟨rfl, -⟩ := Prod.mk.inj hrun
      obtain ⟨_, _, _, -, -, -, heq⟩ | ⟨r', cause', hkeeps, heq⟩ := hcases
      · simp at heq
      · obtain ⟨rfl, -⟩ := Prod.mk.inj heq
        exact ⟨[], r, by rw [hkeeps.written, List.append_nil], .done r⟩
    | @written page context text engine r₁ _ hrender hwrite =>
      obtain ⟨ws, r', hwritten, hnext⟩ := ih hrun
      have hkeeps := writePage_keeps { r with engine } output page.link text
      rw [hwrite] at hkeeps
      refine ⟨⟨page.sort, page.link, context⟩ :: ws, r', ?_, .page hrender hwrite hnext⟩
      rw [hwritten, note_written, hkeeps.written, List.append_assoc, List.singleton_append]

end Run

namespace Site

variable {s : Site} {d : Decl} {p : PlannedPage} {ws : List WrittenPage}

/-- Grouping a list by the names that it has in order gives back the list. -/
theorem flatMap_filter_of_sublist {α : Type} {f : α → String} {items : List α}
    {keys : List String} (hsub : (items.map f).Sublist keys) (hnodup : keys.Nodup) :
    keys.flatMap (fun key => items.filter fun a => f a == key) = items := by
  induction keys generalizing items with
  | nil => simpa using hsub
  | cons key keys ih =>
    obtain ⟨hkey, hkeys⟩ := List.nodup_cons.1 hnodup
    have hnone : ∀ items : List α, (items.map f).Sublist keys →
        (items.filter fun a => f a == key) = [] := by
      intro items hsub
      refine List.filter_eq_nil_iff.2 fun a ha heq => hkey ?_
      exact hsub.subset (List.mem_map.2 ⟨a, ha, by simpa using heq⟩)
    rw [List.flatMap_cons]
    cases items with
    | nil => simp
    | cons a items =>
      rcases List.sublist_cons_iff.1 hsub with hsub | ⟨rest, heq, hsub⟩
      · rw [hnone _ hsub, ih hsub hkeys, List.nil_append]
      · obtain ⟨rfl, rfl⟩ : f a = key ∧ items.map f = rest := List.cons.inj heq
        -- the first item is the only one of its name
        have hothers : (keys.flatMap fun key => (a :: items).filter fun b => f b == key) =
            keys.flatMap fun key => items.filter fun b => f b == key := by
          refine List.flatMap_congr fun key hmem => ?_
          rw [List.filter_cons_of_neg]
          simp only [beq_iff_eq]
          rintro rfl
          exact hkey hmem
        rw [hothers, ih hsub hkeys, List.filter_cons_of_pos (by simp), hnone _ hsub]
        rfl

theorem sources_sublist (s : Site) :
    (s.index.sources.map fun q => q.1.name).Sublist (s.index.types.map Decl.name) := by
  have hsub := (Index.sourcesFrom_sublist {} s.index.types).map Decl.name
  rwa [List.map_map] at hsub

theorem nodup_names (s : Site) : (s.index.types.map Decl.name).Nodup :=
  Index.nodup_types s.model.types

/-- The source entries of the types, taken type by type, are all source entries. -/
theorem flatMap_sources (s : Site) :
    (s.index.types.flatMap fun d => s.index.sources.filter fun q => q.1.name == d.name) =
      s.index.sources := by
  have h := flatMap_filter_of_sublist (f := fun q : Decl × Path => q.1.name) s.sources_sublist
    s.nodup_names
  rwa [List.flatMap_map] at h

theorem length_typePages_le (s : Site) (d : Decl) :
    (s.typePages s.index s.index.sources d).length ≤
      1 + (s.index.sources.filter fun q => q.1.name == d.name).length := by
  unfold typePages
  split
  · simp
  · simp [Nat.add_comm]

theorem length_commonPages_le (s : Site) :
    (s.commonPages s.index).length ≤ s.config.templates.common.length := by
  unfold commonPages
  split
  · simp
  · rename_i hne
    split
    · exact List.length_pos_iff.2 (by simpa using hne)
    · simp

/-- No more pages are planned than a run announces. -/
theorem length_pages_le (s : Site) : s.pages.length ≤ s.pageCount := by
  have htypes : (s.index.types.flatMap (s.typePages s.index s.index.sources)).length ≤
      s.index.types.length + s.index.sources.length := by
    conv_rhs => rw [← s.flatMap_sources]
    rw [List.length_flatMap, List.length_flatMap]
    have hsum : ∀ types : List Decl,
        (types.map fun d => (s.typePages s.index s.index.sources d).length).sum ≤
          types.length + (types.map fun d =>
            (s.index.sources.filter fun q => q.1.name == d.name).length).sum := by
      intro types
      induction types with
      | nil => simp
      | cons d types ih =>
        have hd := s.length_typePages_le d
        simp only [List.map_cons, List.sum_cons, List.length_cons]
        omega
    exact hsum s.index.types
  have hcommon := s.length_commonPages_le
  simp only [pages, pageCount, List.length_append, List.length_map]
  omega

theorem counted_copies {σ : Type} (s : Site) (output : Path) (r : Run σ) :
    Run.Counted r s.pageCount []
      (Run.advance (Run.copyResource output) (r.start s.pageCount) s.config.resources).1 :=
  Run.advance_invariant (Run.counted_start r s.pageCount) fun resource _ r₁ h₁ =>
    h₁.keeps (Run.copyResource_keeps r₁ resource)

/-- However a run ends that found its output, it has written and counted the first of the planned
pages. -/
theorem counted_of_generate {σ : Type} {r r' : Run σ} {e : Engine σ} {h : Highlighter}
    {output : Path} {cause : Option SiteError} (hdir : r.tree.isDir output = true)
    (hrun : s.generate e h output r = (r', cause)) :
    ∃ done rest ws r₁, s.pages = done ++ rest ∧ WrittenAs done ws ∧
      Run.Counted r s.pageCount ws r₁ ∧
      ((cause = none ∧ rest = [] ∧ r' = r₁.finish) ∨ (cause ≠ none ∧ r' = r₁)) := by
  have hcopied := s.counted_copies output r
  have hfits : ([] : List WrittenPage).length + s.pages.length ≤ s.pageCount := by
    simpa using s.length_pages_le
  have hends := s.generate_ends e h output r
  rw [hrun] at hends
  cases hends with
  | missing hmissing => simp [hmissing] at hdir
  | uncopied _ hcopy =>
    rw [hcopy] at hcopied
    exact ⟨[], s.pages, [], r', rfl, .nil, hcopied, .inr ⟨by simp, rfl⟩⟩
  | unrendered _ hcopy hrender =>
    rw [hcopy] at hcopied
    obtain ⟨done, rest, ws, hpages, hws, hall, -⟩ := hcopied.advance_renderPage hfits hrender
    exact ⟨done, rest, ws, r', hpages, hws, hall, .inr ⟨by simp, rfl⟩⟩
  | @rendered r₁ r₂ _ hcopy hrender =>
    rw [hcopy] at hcopied
    obtain ⟨done, rest, ws, hpages, hws, hall, hrest⟩ := hcopied.advance_renderPage hfits hrender
    exact ⟨done, rest, ws, r₂, hpages, hws, hall, .inl ⟨rfl, hrest rfl, rfl⟩⟩

/-- However a run ends, the contexts of the pages that it noted were given to the engine. -/
theorem renders_of_generate {σ : Type} {r r' : Run σ} {e : Engine σ} {h : Highlighter}
    {output : Path} {cause : Option SiteError} (hrun : s.generate e h output r = (r', cause))
    (hwritten : r'.written = r.written ++ ws) :
    ∃ r₁, Run.Renders e output (s.copied output r).1 ws r₁ := by
  have hcopied : (s.copied output r).1.written = r.written := by
    rw [copied, (s.counted_copies output r).written_eq, List.append_nil]
  unfold copied at hcopied ⊢
  have hnone : r'.written = r.written → ws = [] := fun hsame => by simpa [hsame] using hwritten
  have hends := s.generate_ends e h output r
  rw [hrun] at hends
  cases hends with
  | missing =>
    obtain rfl := hnone rfl
    exact ⟨_, .done _⟩
  | uncopied _ hcopy =>
    rw [hcopy] at hcopied
    obtain rfl := hnone hcopied
    exact ⟨_, .done _⟩
  | unrendered _ hcopy hrender =>
    obtain ⟨vs, r₁, hvs, hrenders⟩ := Run.exists_renders hrender
    rw [hcopy] at hcopied ⊢
    obtain rfl : vs = ws := List.append_cancel_left (hvs.symm.trans (hcopied ▸ hwritten))
    exact ⟨r₁, hrenders⟩
  | @rendered _ r₂ _ hcopy hrender =>
    obtain ⟨vs, r₁, hvs, hrenders⟩ := Run.exists_renders hrender
    rw [hcopy] at hcopied ⊢
    have hfinish : r₂.finish.written = r₂.written := rfl
    rw [hfinish] at hwritten
    obtain rfl : vs = ws := List.append_cancel_left (hvs.symm.trans (hcopied ▸ hwritten))
    exact ⟨r₁, hrenders⟩

/-- A run that ends without an error has written all planned pages in their order. -/
theorem writtenAs_of_generate {σ : Type} {r r' : Run σ} {e : Engine σ} {h : Highlighter}
    {output : Path} (hrun : s.generate e h output r = (r', none)) :
    ∃ ws, r'.written = r.written ++ ws ∧ WrittenAs s.pages ws := by
  obtain ⟨done, rest, ws, r₁, hpages, hws, hall, hend⟩ :=
    counted_of_generate (isDir_of_generate hrun) hrun
  obtain ⟨-, rfl, rfl⟩ | ⟨hne, -⟩ := hend
  · rw [List.append_nil] at hpages
    exact ⟨ws, hall.written_eq, hpages ▸ hws⟩
  · contradiction

/-- What is written for a type: its page, and right after it the source page of the file that it
introduces, if it introduces one. -/
inductive Block (s : Site) (d : Decl) : List WrittenPage → Prop
  | alone {page : Page} {w : WrittenPage} (hpage : s.classPage s.index d = .ok page)
      (hw : w.Of page) (hnone : ∀ file, ¬s.index.Introduces d file) : Block s d [w]
  | withSource {page source : Page} {v w : WrittenPage} {file : Path}
      (hpage : s.classPage s.index d = .ok page) (hv : v.Of page)
      (hfile : s.index.Introduces d file) (hsource : s.sourcePage d page file = .ok source)
      (hw : w.Of source) : Block s d [v, w]

/-- A type has the source entry of the file that it introduces, and no other. -/
theorem filter_sources (hd : d ∈ s.index.types) :
    ((s.index.sources.filter fun q => q.1.name == d.name) = [] ∧
      ∀ file, ¬s.index.Introduces d file) ∨
    ∃ file, (s.index.sources.filter fun q => q.1.name == d.name) = [(d, file)] ∧
      s.index.Introduces d file := by
  have hfound : ∀ q ∈ s.index.sources.filter fun q => q.1.name == d.name,
      q.1 = d ∧ s.index.Introduces d q.2 := by
    rintro ⟨p, file⟩ hq
    obtain ⟨hentry, hname⟩ := List.mem_filter.1 hq
    obtain rfl : p = d :=
      Index.eq_of_name_eq (Index.mem_sourcesFrom hentry).1 hd (by simpa using hname)
    exact ⟨rfl, Index.mem_sources_iff.1 hentry⟩
  have hnodup : ((s.index.sources.filter fun q => q.1.name == d.name).map fun q =>
      q.1.name).Nodup :=
    (s.nodup_names.sublist s.sources_sublist).sublist (List.filter_sublist.map _)
  generalize hentries : (s.index.sources.filter fun q => q.1.name == d.name) = entries at *
  match entries with
  | [] =>
    refine .inl ⟨rfl, fun file hfile => ?_⟩
    have hmem : (d, file) ∈ s.index.sources.filter fun q => q.1.name == d.name :=
      List.mem_filter.2 ⟨Index.mem_sources_iff.2 hfile, beq_self_eq_true d.name⟩
    rw [hentries] at hmem
    simp at hmem
  | [(p, file)] =>
    obtain ⟨rfl, hfile⟩ := hfound (p, file) (.head _)
    exact .inr ⟨file, rfl, hfile⟩
  | q₁ :: q₂ :: _ =>
    -- two entries would be of one type, but their names differ
    have h₁ := (hfound q₁ (by simp)).1
    have h₂ := (hfound q₂ (by simp)).1
    simp [h₁, h₂] at hnodup

theorem block_of_writtenAs (hd : d ∈ s.index.types)
    (h : WrittenAs (s.typePages s.index s.index.sources d) ws) : s.Block d ws := by
  unfold typePages at h
  split at h
  · obtain ⟨w, _, ⟨page, hpage, -⟩, -, -⟩ := List.forall₂_cons_left_iff.1 h
    contradiction
  rename_i page hpage
  obtain ⟨v, vs, ⟨page', hpage', hv⟩, hvs, rfl⟩ := List.forall₂_cons_left_iff.1 h
  obtain rfl := Except.ok.inj hpage'
  rcases filter_sources hd with ⟨hnil, hnone⟩ | ⟨file, hone, hfile⟩
  · rw [hnil] at hvs
    obtain rfl := List.forall₂_nil_left_iff.1 hvs
    exact .alone hpage hv hnone
  · rw [hone] at hvs
    obtain ⟨w, ws', ⟨source, hsource, hw⟩, hws', rfl⟩ := List.forall₂_cons_left_iff.1 hvs
    obtain rfl := List.forall₂_nil_left_iff.1 hws'
    exact .withSource hpage hv hfile hsource hw

/-- The pages with fixed names, those of the namespaces and of the packages, and those of some of the
types. -/
def pagesWith (s : Site) (types : List Decl) : List PlannedPage :=
  s.commonPages s.index ++ s.index.namespaces.map (s.namespacePage s.index) ++
    s.index.packages.map (s.packagePage s.index) ++
    types.flatMap (s.typePages s.index s.index.sources)

theorem pages_eq_pagesWith (s : Site) : s.pages = s.pagesWith s.index.types := rfl

theorem pagesWith_append (types more : List Decl) : s.pagesWith (types ++ more) =
    s.pagesWith types ++ more.flatMap (s.typePages s.index s.index.sources) := by
  rw [pagesWith, pagesWith, List.flatMap_append, List.append_assoc _ _ (more.flatMap _)]

/-- What was written comes in parts: the pages with fixed names, those of the namespaces, those of
the packages and those of each type. -/
theorem exists_parts {types : List Decl} (hmem : ∀ d ∈ types, d ∈ s.index.types)
    (h : WrittenAs (s.pagesWith types) ws) : ∃ commons namespaces packages blocks,
    ws = commons ++ namespaces ++ packages ++ blocks.flatten ∧
    WrittenAs (s.commonPages s.index) commons ∧
    WrittenAs (s.index.namespaces.map (s.namespacePage s.index)) namespaces ∧
    WrittenAs (s.index.packages.map (s.packagePage s.index)) packages ∧
    List.Forall₂ s.Block types blocks := by
  obtain ⟨heads, rest, rfl, hheads, hrest⟩ := exists_append_of_forall₂ h
  obtain ⟨heads, packages, rfl, hheads, hpackages⟩ := exists_append_of_forall₂ hheads
  obtain ⟨commons, namespaces, rfl, hcommons, hnamespaces⟩ := exists_append_of_forall₂ hheads
  obtain ⟨blocks, rfl, hblocks⟩ := exists_flatten_of_forall₂ hrest
  refine ⟨commons, namespaces, packages, blocks, rfl, hcommons, hnamespaces, hpackages, ?_⟩
  exact List.forall₂_iff_zip.2 ⟨hblocks.length_eq, fun {d block} hin =>
    block_of_writtenAs (hmem d (List.of_mem_zip hin).1) (List.forall₂_zip hblocks hin)⟩

end Site
end DocSite
