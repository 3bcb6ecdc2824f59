import DocSite.Proofs.FileTree.Growth
import DocSite.Site.Generate

namespace DocSite

open FileTree (Grows Found)

variable {σ : Type} {r r' r'' : Run σ} {output : Path} {c : Config} {t : FileTree} {loc : Location}
variable {e : Engine σ} {h : Highlighter}

/-- The page was written as planned: only the text of a source file is put into its context when
it is written. -/
def WrittenPage.Of (w : WrittenPage) (page : Page) : Prop :=
  ∃ source, w = ⟨page.sort, page.link, { page.context with source }⟩

namespace Run

section Advance

variable {α : Type} {step : Run σ → α → Advance σ} {items : List α} {a : α}

theorem advance_cons : advance step r (a :: items) =
    match step r a with
    | (r', none) => advance step r' items
    | (r', some cause) => (r', some cause) := by
  have hstop : ∀ (items : List α) (r' : Run σ) (cause : SiteError),
      items.foldl (fun a item => if a.2.isNone then step a.1 item else a) (r', some cause) =
        (r', some cause) := by
    intro items r' cause
    induction items with
    | nil => rfl
    | cons item items ih =>
      rw [List.foldl_cons]
      exact ih
  unfold advance
  rw [List.foldl_cons]
  simp only [Option.isNone_none, if_true]
  split
  · rename_i r' heq
    rw [heq]
  · rename_i r' cause heq
    rw [heq]
    exact hstop items r' cause

theorem advance_append (items more : List α) : advance step r (items ++ more) =
    match advance step r items with
    | (r', none) => advance step r' more
    | (r', some cause) => (r', some cause) := by
  induction items generalizing r with
  | nil => rfl
  | cons a items ih =>
    rw [List.cons_append, advance_cons, advance_cons]
    cases step r a with
    | mk r' cause =>
      cases cause with
      | none => exact ih
      | some cause => rfl

/-- What every successful step preserves holds after all of them. -/
theorem advance_induction {I : List α → Run σ → Prop} (hstart : I [] r)
    (hstep : ∀ done a r r', a ∈ items → I done r → step r a = (r', none) → I (done ++ [a]) r')
    (hrun : advance step r items = (r', none)) : I items r' := by
  -- the run is cut into the items done and the rest, and the induction is on the rest
  suffices h : ∀ rest done r, (∀ a ∈ rest, a ∈ items) → I done r →
      advance step r rest = (r', none) → I (done ++ rest) r' from
    h items [] r (fun _ ha => ha) hstart hrun
  intro rest
  induction rest with
  | nil =>
    intro done r _ hI hrun
    obtain ⟨rfl, -⟩ := Prod.mk.inj hrun
    rwa [List.append_nil]
  | cons a rest ih =>
    intro done r hmem hI hrun
    rw [advance_cons] at hrun
    split at hrun
    · rename_i r₁ hok
      have hnext := hstep done a r r₁ (hmem a (.head _)) hI hok
      have hall := ih (done ++ [a]) r₁ (fun b hb => hmem b (.tail _ hb)) hnext hrun
      rwa [List.append_assoc] at hall
    · simp at hrun

/-- What every step preserves, whether it succeeds or not, holds after all of them. -/
theorem advance_invariant {I : Run σ → Prop} (hstart : I r)
    (hstep : ∀ a ∈ items, ∀ r, I r → I (step r a).1) : I (advance step r items).1 := by
  induction items generalizing r with
  | nil => exact hstart
  | cons a items ih =>
    have ha := hstep a (.head _) r hstart
    rw [advance_cons]
    split
    · rename_i r' heq
      rw [heq] at ha
      exact ih ha fun b hb => hstep b (.tail _ hb)
    · rename_i r' cause heq
      rwa [heq] at ha

theorem cause_of_advance {P : SiteError → Prop} {cause : SiteError}
    (hstep : ∀ a r r' cause, step r a = (r', some cause) → P cause)
    (hrun : advance step r items = (r', some cause)) : P cause := by
  induction items generalizing r with
  | nil => simp [advance] at hrun
  | cons a items ih =>
    rw [advance_cons] at hrun
    split at hrun
    · exact ih hrun
    · rename_i heq
      obtain rfl := Option.some.inj (Prod.mk.inj hrun).2
      exact hstep _ _ _ _ heq

end Advance

inductive CopyEnds (target : Path) (r : Run σ) (f : Found) : Advance σ → Prop
  | skipped (hfile : f.isFile = false) : CopyEnds target r f (r, none)
  | homeless {r₁ : Run σ} {cause : SiteError}
      (hparent : r.ensureParent (Found.pathBelow target f.names) = (r₁, some cause)) :
      CopyEnds target r f (r₁, some cause)
  | refused {r₁ : Run σ} {cause : FileError}
      (hparent : r.ensureParent (Found.pathBelow target f.names) = (r₁, none))
      (hcopy : r₁.tree.copyFile f.path (Found.pathBelow target f.names) = .error cause) :
      CopyEnds target r f (r₁, some (.file f.path cause))
  | copied {r₁ : Run σ} {tree : FileTree} (hfile : f.isFile = true)
      (hparent : r.ensureParent (Found.pathBelow target f.names) = (r₁, none))
      (hcopy : r₁.tree.copyFile f.path (Found.pathBelow target f.names) = .ok tree) :
      CopyEnds target r f
        ({ r₁ with tree, stats := { r₁.stats with resources := r₁.stats.resources + 1 } }, none)

theorem copyEntry_ends (target : Path) (r : Run σ) (f : Found) :
    CopyEnds target r f (copyEntry target r f) := by
  unfold copyEntry
  split
  · rename_i hfile
    exact .skipped (by simpa using hfile)
  rename_i hfile
  have hfile : f.isFile = true := by simpa using hfile
  dsimp only
  split
  · rename_i hparent
    exact .homeless hparent
  rename_i hparent
  split
  · rename_i hcopy
    exact .refused hparent hcopy
  · rename_i hcopy
    exact .copied hfile hparent hcopy

inductive WriteEnds (output : Path) (r : Run σ) (link text : String) : Advance σ → Prop
  | homeless {r₁ : Run σ} {cause : SiteError}
      (hparent : r.ensureParent (output.join ⟨link⟩) = (r₁, some cause)) :
      WriteEnds output r link text (r₁, some cause)
  | refused {r₁ : Run σ} {cause : FileError}
      (hparent : r.ensureParent (output.join ⟨link⟩) = (r₁, none))
      (hwrite : r₁.tree.write (output.join ⟨link⟩) text.toUTF8 = .error cause) :
      WriteEnds output r link text (r₁, some (.file (output.join ⟨link⟩) cause))
  | written {r₁ : Run σ} {tree : FileTree}
      (hparent : r.ensureParent (output.join ⟨link⟩) = (r₁, none))
      (hwrite : r₁.tree.write (output.join ⟨link⟩) text.toUTF8 = .ok tree) :
      WriteEnds output r link text ({ r₁ with tree }, none)

theorem writePage_ends (output : Path) (r : Run σ) (link text : String) :
    WriteEnds output r link text (r.writePage output link text) := by
  unfold writePage
  dsimp only
  split
  · rename_i hparent
    exact .homeless hparent
  rename_i hparent
  split
  · rename_i hwrite
    exact .refused hparent hwrite
  · rename_i hwrite
    exact .written hparent hwrite

inductive RenderEnds (e : Engine σ) (h : Highlighter) (output : Path) (r : Run σ) :
    PlannedPage → Advance σ → Prop
  | unplanned {cause : SiteError} : RenderEnds e h output r (.error cause) (r, some cause)
  | unread {page : Page} {cause : SiteError} (hcontext : r.fullContext h page = .error cause) :
      RenderEnds e h output r (.ok page) (r, some cause)
  | unrendered {page : Page} {context : PageContext} {cause : TemplateFault} {engine : σ}
      (hcontext : r.fullContext h page = .ok context)
      (hrender : e.render r.tree page.template context r.engine = (.error cause, engine)) :
      RenderEnds e h output r (.ok page) ({ r with engine }, some (.template page.template cause))
  | unwritten {page : Page} {context : PageContext} {text : String} {engine : σ} {r₁ : Run σ}
      {cause : SiteError} (hcontext : r.fullContext h page = .ok context)
      (hrender : e.render r.tree page.template context r.engine = (.ok text, engine))
      (hwrite : { r with engine }.writePage output page.link text = (r₁, some cause)) :
      RenderEnds e h output r (.ok page) (r₁, some cause)
  | written {page : Page} {context : PageContext} {text : String} {engine : σ} {r₁ : Run σ}
      (hcontext : r.fullContext h page = .ok context)
      (hrender : e.render r.tree page.template context r.engine = (.ok text, engine))
      (hwrite : { r with engine }.writePage output page.link text = (r₁, none)) :
      RenderEnds e h output r (.ok page) (r₁.note page context, none)

theorem renderPage_ends (e : Engine σ) (h : Highlighter) (output : Path) (r : Run σ)
    (p : PlannedPage) : RenderEnds e h output r p (renderPage e h output r p) := by
  unfold renderPage
  split
  · exact .unplanned
  split
  · rename_i hcontext
    exact .unread hcontext
  rename_i hcontext
  split
  · rename_i hrender
    exact .unrendered hcontext hrender
  rename_i hrender
  split
  · rename_i hwrite
    exact .unwritten hcontext hrender hwrite
  · rename_i hwrite
    exact .written hcontext hrender hwrite

theorem start_written (r : Run σ) (total : Nat) : (r.start total).written = r.written := rfl

theorem note_written (r : Run σ) (page : Page) (context : PageContext) :
    (r.note page context).written = r.written ++ [⟨page.sort, page.link, context⟩] := rfl

theorem ensureParent_grows {path : Path} {cause : Option SiteError} (hs : r.tree.Sorted)
    (hok : r.ensureParent path = (r', cause)) :
    Grows r.tree (fun _ => False) r'.tree ∧ r'.written = r.written := by
  unfold ensureParent at hok
  split at hok
  · obtain ⟨rfl, -⟩ := Prod.mk.inj hok
    exact ⟨.refl hs, rfl⟩
  · obtain ⟨rfl, -⟩ := Prod.mk.inj hok
    exact ⟨FileTree.createDirAll_grows hs, rfl⟩

/-- Copying an entry writes at most the file that the path of the copy leads to. -/
theorem copyEntry_grows {target : Path} {f : Found} {cause : Option SiteError}
    (hs : r.tree.Sorted) (hend : copyEntry target r f = (r', cause)) :
    Grows r.tree (fun loc => f.isFile = true ∧
      r'.tree.follow true (Found.pathBelow target f.names) = .ok loc) r'.tree ∧
    r'.written = r.written := by
  have hends := copyEntry_ends target r f
  rw [hend] at hends
  cases hends with
  | skipped => exact ⟨.refl hs, rfl⟩
  | homeless hparent | refused hparent =>
    obtain ⟨hgrows, hwritten⟩ := ensureParent_grows hs hparent
    exact ⟨hgrows.mono fun _ h => h.elim, hwritten⟩
  | @copied r₁ tree hfile hparent hcopy =>
    obtain ⟨hgrows, hwritten⟩ := ensureParent_grows hs hparent
    obtain ⟨loc, bytes, hloc, hdir, rfl⟩ := FileTree.copyFile_eq_ok hcopy
    have hput : Grows r₁.tree (· = loc) (r₁.tree.put loc (.file bytes)) :=
      FileTree.putFile_grows hgrows.sorted hloc hdir
    refine ⟨hgrows.append hput (fun _ _ _ h => h.elim) fun l hl => ⟨hfile, ?_⟩, hwritten⟩
    exact hl ▸ (FileTree.follow_putFile hgrows.sorted hloc hdir).1

/-- Writing a page writes at most the file that its path leads to, and does so if it succeeds. -/
theorem writePage_grows {link text : String} {cause : Option SiteError} (hs : r.tree.Sorted)
    (hend : r.writePage output link text = (r', cause)) :
    Grows r.tree (fun loc => r'.tree.follow true (output.join ⟨link⟩) = .ok loc) r'.tree ∧
      (cause = none → r'.tree.isFile (output.join ⟨link⟩) = true) ∧ r'.written = r.written := by
  have hends := writePage_ends output r link text
  rw [hend] at hends
  cases hends with
  | homeless hparent | refused hparent =>
    obtain ⟨hgrows, hwritten⟩ := ensureParent_grows hs hparent
    exact ⟨hgrows.mono fun _ h => h.elim, by simp, hwritten⟩
  | @written r₁ tree hparent hwrite =>
    obtain ⟨hgrows, hwritten⟩ := ensureParent_grows hs hparent
    obtain ⟨loc, hloc, hdir, rfl⟩ := FileTree.write_eq_ok hwrite
    have hput : Grows r₁.tree (· = loc) (r₁.tree.put loc (.file text.toUTF8)) :=
      FileTree.putFile_grows hgrows.sorted hloc hdir
    obtain ⟨hfollow, hfile⟩ := FileTree.follow_putFile hgrows.sorted hloc hdir
    refine ⟨hgrows.append hput (fun _ _ _ h => h.elim) fun l hl => ?_, fun _ => ?_, hwritten⟩
    · exact hl ▸ hfollow
    · exact FileTree.isFile_iff.2 ⟨loc, _, hfollow, hfile⟩

theorem fullContext_eq_ok {page : Page} {context : PageContext}
    (hok : r.fullContext h page = .ok context) :
    WrittenPage.Of ⟨page.sort, page.link, context⟩ page := by
  unfold fullContext at hok
  split at hok
  · exact ⟨page.context.source, by rw [← Except.ok.inj hok]⟩
  · split at hok
    · simp at hok
    · exact ⟨_, by rw [← Except.ok.inj hok]⟩

/-- A page that is rendered without an error was planned and is written at its link. -/
theorem renderPage_grows {p : PlannedPage} (hs : r.tree.Sorted)
    (hok : renderPage e h output r p = (r', none)) : ∃ page w, p = .ok page ∧ w.Of page ∧
      Grows r.tree (fun loc => r'.tree.follow true (output.join ⟨w.link⟩) = .ok loc) r'.tree ∧
      r'.tree.isFile (output.join ⟨w.link⟩) = true ∧ r'.written = r.written ++ [w] := by
  have hends := renderPage_ends e h output r p
  rw [hok] at hends
  cases hends with
  | @written page context text engine r₁ hcontext _ hwrite =>
    obtain ⟨hgrows, hfile, hwritten⟩ := writePage_grows (r := { r with engine }) hs hwrite
    refine ⟨page, ⟨page.sort, page.link, context⟩, rfl, fullContext_eq_ok hcontext, hgrows,
      hfile rfl, ?_⟩
    rw [note_written, hwritten]

/-- A file that a run wrote stands here: a page, or the copy of a file of a resource. -/
inductive FromRun (output : Path) (c : Config) (r : Run σ) (loc : Location) : Prop
  | page (w : WrittenPage) (hw : w ∈ r.written)
      (hloc : r.tree.follow true (output.join ⟨w.link⟩) = .ok loc)
  | copy (resource : Resource) (names : List String) (hr : resource ∈ c.resources)
      (hne : names ≠ []) (hnames : ∀ name ∈ names, IsName name)
      (hloc : r.tree.follow true
        (Found.pathBelow (output.join ⟨resource.destination⟩) names) = .ok loc)

/-- What holds of a run when the pages in `done` have been written. -/
structure After (output : Path) (c : Config) (t : FileTree) (done : List PlannedPage)
    (r : Run σ) : Prop where
  grows : Grows t (FromRun output c r) r.tree
  isFile : ∀ w ∈ r.written, r.tree.isFile (output.join ⟨w.link⟩) = true
  planned : ∀ w ∈ r.written, ∃ page, .ok page ∈ done ∧ w.Of page
  complete : ∀ p ∈ done, ∃ page w, p = .ok page ∧ w ∈ r.written ∧ w.Of page

theorem FromRun.mono {Q : Location → Prop} {bytes : ByteArray} (hgrows : Grows r.tree Q r'.tree)
    (hwritten : ∀ w ∈ r.written, w ∈ r'.written) (he : r.tree.entryAt loc = some (.file bytes))
    (hrun : FromRun output c r loc) : FromRun output c r' loc := by
  cases hrun with
  | page w hw hloc => exact .page w (hwritten w hw) (hgrows.follow hloc he)
  | copy resource names hr hne hnames hloc =>
    exact .copy resource names hr hne hnames (hgrows.follow hloc he)

theorem After.renderPage {done : List PlannedPage} {p : PlannedPage} (hr : After output c t done r)
    (hok : Run.renderPage e h output r p = (r', none)) : After output c t (done ++ [p]) r' := by
  obtain ⟨page, w, rfl, hof, hgrows, hfile, hwritten⟩ := renderPage_grows hr.grows.sorted hok
  have hkeep : ∀ w ∈ r.written, w ∈ r'.written := fun w hw => by simp [hwritten, hw]
  have hnew : w ∈ r'.written := by simp [hwritten]
  have hcases : ∀ v ∈ r'.written, v ∈ r.written ∨ v = w := fun v hv => by
    simpa [hwritten] using hv
  constructor
  · exact hr.grows.append hgrows (fun _ _ he => .mono hgrows hkeep he) fun _ => .page w hnew
  · intro v hv
    rcases hcases v hv with hv | rfl
    · exact hgrows.isFile (hr.isFile v hv)
    · exact hfile
  · intro v hv
    rcases hcases v hv with hv | rfl
    · obtain ⟨page', hpage', hof'⟩ := hr.planned v hv
      exact ⟨page', List.mem_append_left _ hpage', hof'⟩
    · exact ⟨page, by simp, hof⟩
  · intro q hq
    rcases List.mem_append.1 hq with hq | hq
    · obtain ⟨page', v, rfl, hv, hof'⟩ := hr.complete q hq
      exact ⟨page', v, rfl, hkeep v hv, hof'⟩
    · exact ⟨page, w, List.mem_singleton.1 hq, hnew, hof⟩

theorem After.copyEntry {resource : Resource} {f : Found} (hr : After output c t [] r)
    (hmem : resource ∈ c.resources) (hne : f.names ≠ []) (hnames : ∀ name ∈ f.names, IsName name)
    (hok : Run.copyEntry (output.join ⟨resource.destination⟩) r f = (r', none)) :
    After output c t [] r' := by
  obtain ⟨hgrows, hwritten⟩ := copyEntry_grows hr.grows.sorted hok
  have hkeep : ∀ w ∈ r.written, w ∈ r'.written := fun w hw => by rwa [hwritten]
  constructor
  · exact hr.grows.append hgrows (fun _ _ he => .mono hgrows hkeep he) fun _ hcopy =>
      .copy resource f.names hmem hne hnames hcopy.2
  · intro w hw
    exact hgrows.isFile (hr.isFile w (hwritten ▸ hw))
  · intro w hw
    exact hr.planned w (hwritten ▸ hw)
  · simp

theorem After.copyResource {resource : Resource} (hr : After output c t [] r)
    (hmem : resource ∈ c.resources) (hok : Run.copyResource output r resource = (r', none)) :
    After output c t [] r' := by
  unfold Run.copyResource at hok
  split at hok
  · simp at hok
  rename_i found hwalk
  obtain ⟨root, -, hroot, -⟩ := FileTree.exists_root_of_walk hwalk
  have hw := hr.grows.sorted.toWellFormed
  refine advance_induction (I := fun _ r => After output c t [] r) hr ?_ hok
  intro _ f r₁ r₂ hf hr₁ hcopy
  have hfound := (FileTree.mem_walk_iff hw hwalk hroot).1 hf
  exact hr₁.copyEntry hmem hfound.names_ne_nil
    (fun _ hname => hw.isName hfound.entry_eq (List.mem_append_right _ hname)) hcopy

end Run

def Site.copied (s : Site) (output : Path) (r : Run σ) : Advance σ :=
  Run.advance (Run.copyResource output) (r.start s.pageCount) s.config.resources

inductive Site.GenerateEnds (s : Site) (e : Engine σ) (h : Highlighter) (output : Path)
    (r : Run σ) : Advance σ → Prop
  | missing (hdir : r.tree.isDir output = false) :
      GenerateEnds s e h output r (r, some (.outputMissing output))
  | uncopied {r₁ : Run σ} {cause : SiteError} (hdir : r.tree.isDir output = true)
      (hcopy : Run.advance (Run.copyResource output) (r.start s.pageCount) s.config.resources =
        (r₁, some cause)) :
      GenerateEnds s e h output r (r₁, some cause)
  | unrendered {r₁ r₂ : Run σ} {cause : SiteError} (hdir : r.tree.isDir output = true)
      (hcopy : Run.advance (Run.copyResource output) (r.start s.pageCount) s.config.resources =
        (r₁, none))
      (hrender : Run.advance (Run.renderPage e h output) r₁ s.pages = (r₂, some cause)) :
      GenerateEnds s e h output r (r₂, some cause)
  | rendered {r₁ r₂ : Run σ} (hdir : r.tree.isDir output = true)
      (hcopy : Run.advance (Run.copyResource output) (r.start s.pageCount) s.config.resources =
        (r₁, none))
      (hrender : Run.advance (Run.renderPage e h output) r₁ s.pages = (r₂, none)) :
      GenerateEnds s e h output r (r₂.finish, none)

theorem Site.generate_ends (s : Site) (e : Engine σ) (h : Highlighter) (output : Path)
    (r : Run σ) : s.GenerateEnds e h output r (s.generate e h output r) := by
  unfold Site.generate
  split
  · rename_i hdir
    exact .missing (by simpa using hdir)
  rename_i hdir
  have hdir : r.tree.isDir output = true := by simpa using hdir
  split
  · rename_i hcopy
    exact .uncopied hdir hcopy
  rename_i hcopy
  split
  · rename_i hrender
    exact .unrendered hdir hcopy hrender
  · rename_i hrender
    exact .rendered hdir hcopy hrender

/-- What the copying of each resource and the turn of each page preserve, a run preserves, whether
it succeeds or not. -/
theorem Site.generate_invariant {s : Site} {I : FileTree → Prop} (hstart : I r.tree)
    (hcopy : ∀ resource ∈ s.config.resources, ∀ r : Run σ, I r.tree →
      I (Run.copyResource output r resource).1.tree)
    (hrender : ∀ planned ∈ s.pages, ∀ r : Run σ, I r.tree →
      I (Run.renderPage e h output r planned).1.tree) : I (s.generate e h output r).1.tree := by
  have hcopied : I (Run.advance (Run.copyResource output) (r.start s.pageCount)
      s.config.resources).1.tree :=
    Run.advance_invariant (I := fun r' => I r'.tree) hstart hcopy
  have hrendered : ∀ r₁ : Run σ, I r₁.tree →
      I (Run.advance (Run.renderPage e h output) r₁ s.pages).1.tree :=
    fun r₁ hr₁ => Run.advance_invariant (I := fun r' => I r'.tree) hr₁ hrender
  have hends := s.generate_ends e h output r
  generalize s.generate e h output r = a at hends ⊢
  cases hends with
  | missing => exact hstart
  | uncopied _ hcopy => rwa [hcopy] at hcopied
  | @unrendered r₁ _ _ _ hcopy hrender | @rendered r₁ _ _ hcopy hrender =>
    rw [hcopy] at hcopied
    have hall := hrendered r₁ hcopied
    rwa [hrender] at hall

/-- A run succeeds if its output is a directory, all resources can be copied and then all pages
written. -/
theorem Site.generate_eq_ok_iff {s : Site} : s.generate e h output r = (r', none) ↔
    r.tree.isDir output = true ∧ ∃ r₁ r₂,
      Run.advance (Run.copyResource output) (r.start s.pageCount) s.config.resources = (r₁, none) ∧
      Run.advance (Run.renderPage e h output) r₁ s.pages = (r₂, none) ∧ r' = r₂.finish := by
  constructor
  · intro hok
    have hends := s.generate_ends e h output r
    rw [hok] at hends
    cases hends with
    | rendered hdir hcopy hrender => exact ⟨hdir, _, _, hcopy, hrender, rfl⟩
  · rintro ⟨hdir, r₁, r₂, hcopy, hrender, rfl⟩
    simp only [generate, hdir, hcopy, hrender, Bool.not_true, Bool.false_eq_true, if_false]

/-- A run that ends without an error has found its output to be a directory. -/
theorem Site.isDir_of_generate {s : Site} (hok : s.generate e h output r = (r', none)) :
    r.tree.isDir output = true :=
  (generate_eq_ok_iff.1 hok).1

/-- Resources are copied before any page is written. -/
theorem Site.after_copies {s : Site} {r₁ : Run σ} (hs : r.tree.Sorted) (hfresh : r.written = [])
    (hcopy : Run.advance (Run.copyResource output) (r.start s.pageCount) s.config.resources =
      (r₁, none)) : Run.After output s.config r.tree [] r₁ := by
  have hstart : Run.After output s.config r.tree [] (r.start s.pageCount) := by
    refine ⟨.refl hs, ?_, ?_, by simp⟩ <;> simp [Run.start_written, hfresh]
  exact Run.advance_induction (I := fun _ r₁ => Run.After output s.config r.tree [] r₁) hstart
    (fun _ resource _ _ hmem hr₁ hok => hr₁.copyResource hmem hok) hcopy

theorem Run.After.advance_renderPage {items : List PlannedPage} (hr : After output c t [] r)
    (hrun : advance (Run.renderPage e h output) r items = (r', none)) :
    After output c t items r' :=
  advance_induction hr (fun _ _ _ _ _ hr₁ hok => hr₁.renderPage hok) hrun

/-- A run from a fresh start that ends without an error has written exactly the planned pages. -/
theorem Site.after_generate {s : Site} (hs : r.tree.Sorted) (hfresh : r.written = [])
    (hok : s.generate e h output r = (r', none)) :
    Run.After output s.config r.tree s.pages r' := by
  obtain ⟨-, r₁, r₂, hcopy, hrender, rfl⟩ := generate_eq_ok_iff.1 hok
  have hall := (after_copies hs hfresh hcopy).advance_renderPage hrender
  refine ⟨hall.grows.mono fun loc hrun => ?_, hall.isFile, hall.planned, hall.complete⟩
  cases hrun with
  | page w hw hloc => exact .page w hw hloc
  | copy resource names hr hne hnames hloc => exact .copy resource names hr hne hnames hloc

end DocSite
