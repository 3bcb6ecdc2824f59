import DocSite.Proofs.FileTree.Replay
import DocSite.Proofs.Site.Fault

namespace DocSite

variable {σ : Type} {s : Site} {r r' r₁ : Run σ} {output path : Path} {e : Engine σ}
variable {h : Highlighter} {page : Page} {pages : List PlannedPage} {cause : SiteError}

/-- The cause lies with the engine or with the files. -/
def SiteError.Outside : SiteError → Prop
  | outputMissing _ | template _ _ | file _ _ => True
  | missingFilename _ | parentCycle _ => False

/-- An engine that has a text for every template and every context. -/
def Engine.Total (e : Engine σ) : Prop :=
  ∀ t template context state, ∃ text state', e.render t template context state = (.ok text, state')

namespace Run

theorem ensureParent_outside (hfail : r.ensureParent path = (r', some cause)) : cause.Outside := by
  unfold ensureParent at hfail
  split at hfail
  · simp at hfail
  · obtain ⟨_, -, rfl⟩ := Option.map_eq_some_iff.1 (Prod.mk.inj hfail).2
    trivial

theorem copyEntry_outside {target : Path} {f : FileTree.Found}
    (hfail : copyEntry target r f = (r', some cause)) : cause.Outside := by
  have hends := copyEntry_ends target r f
  rw [hfail] at hends
  cases hends with
  | homeless hparent => exact ensureParent_outside hparent
  | refused => trivial

theorem copyResource_outside {resource : Resource}
    (hfail : copyResource output r resource = (r', some cause)) : cause.Outside := by
  unfold copyResource at hfail
  split at hfail
  · obtain rfl := Option.some.inj (Prod.mk.inj hfail).2
    trivial
  · exact cause_of_advance (fun _ _ _ _ => copyEntry_outside) hfail

theorem fullContext_outside (hfail : r.fullContext h page = .error cause) : cause.Outside := by
  unfold fullContext at hfail
  split at hfail
  · simp at hfail
  · split at hfail
    · obtain rfl := Except.error.inj hfail
      trivial
    · simp at hfail

theorem writePage_outside {link text : String}
    (hfail : r.writePage output link text = (r', some cause)) : cause.Outside := by
  have hends := writePage_ends output r link text
  rw [hfail] at hends
  cases hends with
  | homeless hparent => exact ensureParent_outside hparent
  | refused => trivial

/-- A page that was planned can only fail for what lies outside. -/
theorem renderPage_outside (hfail : renderPage e h output r (.ok page) = (r', some cause)) :
    cause.Outside := by
  have hends := renderPage_ends e h output r (.ok page)
  rw [hfail] at hends
  cases hends with
  | unread hcontext => exact fullContext_outside hcontext
  | unrendered => trivial
  | unwritten _ _ hwrite => exact writePage_outside hwrite

/-- What the context of a page needs can be read, and its text can be written, whatever it is. -/
def CanWrite (h : Highlighter) (output : Path) (r : Run σ) (page : Page) : Prop :=
  (∃ context, r.fullContext h page = .ok context) ∧
    ∀ (engine : σ) (text : String), ∃ r',
      { r with engine }.writePage output page.link text = (r', none)

theorem renderPage_of_canWrite (he : e.Total) (hcan : r.CanWrite h output page) :
    ∃ r', renderPage e h output r (.ok page) = (r', none) := by
  obtain ⟨⟨context, hcontext⟩, hwrite⟩ := hcan
  obtain ⟨text, engine, hrender⟩ := he r.tree page.template context r.engine
  obtain ⟨r', hr'⟩ := hwrite engine text
  refine ⟨r'.note page context, ?_⟩
  simp only [renderPage, hcontext, hrender, hr']

theorem ensureParent_engine (hok : r.ensureParent path = (r₁, none)) (engine : σ) :
    { r with engine }.ensureParent path = ({ r₁ with engine }, none) := by
  cases hparent : path.parent with
  | none =>
    simp only [ensureParent, hparent] at hok ⊢
    obtain ⟨rfl, -⟩ := Prod.mk.inj hok
    rfl
  | some parent =>
    simp only [ensureParent, hparent] at hok ⊢
    obtain ⟨rfl, hcause⟩ := Prod.mk.inj hok
    rw [hcause]

/-- Whether a page can be written does not depend on its text. -/
theorem exists_writePage {link text : String} (hok : r.writePage output link text = (r', none))
    (engine : σ) (other : String) :
    ∃ r', { r with engine }.writePage output link other = (r', none) := by
  have hends := writePage_ends output r link text
  rw [hok] at hends
  cases hends with
  | written hparent hwrite =>
    obtain ⟨loc, hloc, hdir, -⟩ := FileTree.write_eq_ok hwrite
    have hsep := FileTree.endsInSeparator_of_write hwrite
    unfold writePage
    dsimp only
    rw [ensureParent_engine hparent engine]
    dsimp only
    rw [FileTree.write_of_follow hsep hloc hdir]
    exact ⟨_, rfl⟩

theorem canWrite_of_renderPage (hok : renderPage e h output r (.ok page) = (r', none)) :
    r.CanWrite h output page := by
  have hends := renderPage_ends e h output r (.ok page)
  rw [hok] at hends
  cases hends with
  | written hcontext _ hwrite =>
    exact ⟨⟨_, hcontext⟩, fun engine other => exists_writePage hwrite engine other⟩

/-- Pages are written up to the first that cannot be planned, or something outside fails. -/
theorem advance_renderPage_cases (e : Engine σ) (h : Highlighter) (output : Path) (r : Run σ)
    (pages : List PlannedPage) :
    (advance (renderPage e h output) r pages).2 = Site.firstFault? pages ∨
      ∃ cause, (advance (renderPage e h output) r pages).2 = some cause ∧ cause.Outside := by
  induction pages generalizing r with
  | nil => exact .inl rfl
  | cons p pages ih =>
    rw [advance_cons]
    cases p with
    | error cause => exact .inl rfl
    | ok page =>
      split
      · rename_i r₁ _
        exact ih r₁
      · rename_i cause hfail
        exact .inr ⟨cause, rfl, renderPage_outside hfail⟩

/-- Where each planned page can be written in its turn, the pages are written up to the first that
cannot be planned. -/
theorem advance_renderPage_eq (he : e.Total)
    (hcan : ∀ before page after r₁, pages = before ++ .ok page :: after →
      advance (renderPage e h output) r before = (r₁, none) → r₁.CanWrite h output page) :
    (advance (renderPage e h output) r pages).2 = Site.firstFault? pages := by
  induction pages generalizing r with
  | nil => rfl
  | cons p pages ih =>
    rw [advance_cons]
    cases p with
    | error cause => rfl
    | ok page =>
      obtain ⟨r₁, hr₁⟩ := renderPage_of_canWrite he (hcan [] page pages r rfl rfl)
      rw [hr₁]
      refine ih fun before page' after r₂ hpages hr₂ => ?_
      refine hcan (.ok page :: before) page' after r₂ (by rw [hpages, List.cons_append]) ?_
      rw [advance_cons, hr₁]
      exact hr₂

end Run

namespace Site

/-- The files refuse a run nothing: its output is there, its resources can be copied, and when it
comes to a planned page, that page can be written. -/
structure Unhindered (s : Site) (e : Engine σ) (h : Highlighter) (output : Path) (r : Run σ) :
    Prop where
  isDir : r.tree.isDir output = true
  resources : (s.copied output r).2 = none
  pages : ∀ before page after r₁, s.pages = before ++ .ok page :: after →
    Run.advance (Run.renderPage e h output) (s.copied output r).1 before = (r₁, none) →
    r₁.CanWrite h output page

/-- The outcome of a run whose resources can be copied is that of its pages. -/
theorem generate_cause (hdir : r.tree.isDir output = true)
    (hcopied : (s.copied output r).2 = none) : (s.generate e h output r).2 =
      (Run.advance (Run.renderPage e h output) (s.copied output r).1 s.pages).2 := by
  have hends := s.generate_ends e h output r
  generalize s.generate e h output r = a at hends ⊢
  cases hends with
  | missing hmissing => simp [hmissing] at hdir
  | uncopied _ hcopy => simp [copied, hcopy] at hcopied
  | unrendered _ hcopy hrender | rendered _ hcopy hrender => rw [copied, hcopy, hrender]

/-- However a run ends, it is for the first page that cannot be planned or for something outside. -/
theorem generate_cases (s : Site) (e : Engine σ) (h : Highlighter) (output : Path) (r : Run σ) :
    (s.generate e h output r).2 = firstFault? s.pages ∨
      ∃ cause, (s.generate e h output r).2 = some cause ∧ cause.Outside := by
  have hends := s.generate_ends e h output r
  generalize s.generate e h output r = a at hends ⊢
  cases hends with
  | missing => exact .inr ⟨.outputMissing output, rfl, trivial⟩
  | @uncopied _ cause _ hcopy =>
    exact .inr ⟨cause, rfl, Run.cause_of_advance (fun _ _ _ _ => Run.copyResource_outside) hcopy⟩
  | @unrendered r₁ _ _ _ _ hrender | @rendered r₁ _ _ _ hrender =>
    have hcases := Run.advance_renderPage_cases e h output r₁ s.pages
    rwa [hrender] at hcases

/-- The files refused nothing to a run that did not end for something outside. -/
theorem unhindered_of_generate
    (hcause : ∀ cause, (s.generate e h output r).2 = some cause → ¬cause.Outside) :
    s.Unhindered e h output r := by
  have hstart : r.tree.isDir output = true ∧ (s.copied output r).2 = none := by
    have hends := s.generate_ends e h output r
    generalize s.generate e h output r = a at hends hcause
    cases hends with
    | missing => exact absurd trivial (hcause _ rfl)
    | uncopied _ hcopy =>
      have houtside := Run.cause_of_advance (fun _ _ _ _ => Run.copyResource_outside) hcopy
      exact absurd houtside (hcause _ rfl)
    | unrendered hdir hcopy | rendered hdir hcopy => exact ⟨hdir, congrArg Prod.snd hcopy⟩
  obtain ⟨hdir, hcopied⟩ := hstart
  refine ⟨hdir, hcopied, fun before page after r₁ hpages hbefore => ?_⟩
  rw [generate_cause hdir hcopied, hpages, Run.advance_append, hbefore] at hcause
  dsimp only at hcause
  rw [Run.advance_cons] at hcause
  cases hpage : Run.renderPage e h output r₁ (.ok page) with
  | mk r₂ cause =>
    cases cause with
    | none => exact Run.canWrite_of_renderPage hpage
    | some cause =>
      rw [hpage] at hcause
      exact absurd (Run.renderPage_outside hpage) (hcause cause rfl)

theorem firstLack?_eq_none_iff : s.firstLack? = none ↔ ∀ kind, ¬s.Lacks kind := by
  rw [firstLack?, List.find?_eq_none]
  constructor
  · intro hnone kind
    cases kind <;> simpa using hnone _ (by simp)
  · intro hnone kind _
    simpa using hnone kind

/-- Links fail fast, and only when needed. A run that stops for want of a pattern names the first
kind of page for which a pattern is needed and missing, and one that ends without an error lacks
none. If no parent chain goes round, the engine always has a text and the files refuse nothing, a
run stops just for that. -/
theorem missing_patterns_of_generate (s : Site) (e : Engine σ) (h : Highlighter) (output : Path)
    (r : Run σ) :
    (∀ kind, (s.generate e h output r).2 = some (.missingFilename ⟨kind⟩) →
      s.firstLack? = some kind) ∧
    ((s.generate e h output r).2 = none → ∀ kind, ¬s.Lacks kind) ∧
    (s.model.Acyclic → e.Total → s.Unhindered e h output r →
      (s.generate e h output r).2 = s.firstLack?.map fun kind => .missingFilename ⟨kind⟩) := by
  have hplanned := s.faultIs_pages
  refine ⟨fun kind hkind => ?_, fun hnone => ?_, fun hm he hfiles => ?_⟩
  · rcases s.generate_cases e h output r with heq | ⟨cause, heq, houtside⟩
    · rw [← heq, hkind] at hplanned
      rcases hplanned with heq | ⟨-, cycle, heq⟩
      · simpa using heq.symm
      · simp at heq
    · obtain rfl := Option.some.inj (heq.symm.trans hkind)
      exact houtside.elim
  · rcases s.generate_cases e h output r with heq | ⟨cause, heq, -⟩
    · rw [← heq, hnone] at hplanned
      rcases hplanned with heq | ⟨-, cycle, heq⟩
      · exact firstLack?_eq_none_iff.1 (Option.map_eq_none_iff.1 heq.symm)
      · simp at heq
    · simp [hnone] at heq
  · rw [generate_cause hfiles.isDir hfiles.resources, Run.advance_renderPage_eq he hfiles.pages]
    exact hplanned.resolve_right fun ⟨hcycle, _⟩ => hcycle hm

def unpacked : Site :=
  let filenames := { Filenames.standard with forPackage := none }
  let config := { small.config with filenames }
  { model := onlyModel, config, links := .ofConfig config ⟨"src"⟩ }

theorem generate_unpacked : (unpacked.generate blank .plain ⟨"out"⟩ freshRun).2 =
    some (.missingFilename ⟨.packagePage⟩) := by
  have hindex : unpacked.index = small.index := rfl
  simp only [generate, pages, pageCount, hindex, index_small]
  decide +kernel

theorem acyclic_onlyModel : onlyModel.Acyclic := by
  intro d hd
  obtain ⟨_, hchild, -⟩ := Relation.TransGen.head'_iff.1 hd
  obtain ⟨_, -, hparent⟩ := Relation.TransGen.tail'_iff.1 hd
  obtain rfl : d = onlyType := List.mem_singleton.1 hchild.1
  exact absurd hparent.2 (by simp [onlyType])

theorem missing_patterns_of_generate_unpacked : unpacked.model.Acyclic ∧ blank.Total ∧
    unpacked.Unhindered blank .plain ⟨"out"⟩ freshRun ∧
    unpacked.firstLack? = some .packagePage ∧
    (unpacked.generate blank .plain ⟨"out"⟩ freshRun).2 =
      unpacked.firstLack?.map fun kind => .missingFilename ⟨kind⟩ := by
  have hfiles : unpacked.Unhindered blank .plain ⟨"out"⟩ freshRun := by
    refine unhindered_of_generate fun cause hcause houtside => ?_
    obtain rfl := Option.some.inj (hcause.symm.trans generate_unpacked)
    exact houtside
  have htotal : blank.Total := fun _ _ _ _ => ⟨_, _, rfl⟩
  obtain ⟨hkind, -, hrun⟩ :=
    missing_patterns_of_generate unpacked blank .plain ⟨"out"⟩ freshRun
  exact ⟨acyclic_onlyModel, htotal, hfiles, hkind _ generate_unpacked,
    hrun acyclic_onlyModel htotal hfiles⟩

end Site
end DocSite
