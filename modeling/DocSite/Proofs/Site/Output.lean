import DocSite.Proofs.Site.Page
import DocSite.Proofs.Site.Run

namespace DocSite

open FileTree (Grows Found)

variable {σ : Type} {s : Site} {r : Run σ} {output p : Path} {loc : Location} {e : Engine σ}
variable {h : Highlighter} {t t' t'' : FileTree} {P : Location → Prop} {names : List String}
variable {bytes : ByteArray}

/-- A file stands at these names below the place that a path leads to. -/
def FileTree.FileBelow (t : FileTree) (p : Path) (names : List String) : Prop :=
  names ≠ [] ∧ ∃ root bytes, t.follow true p = .ok root ∧
    t.entryAt (root ++ names) = some (.file bytes)

theorem FileTree.FileBelow.grows (hf : t.FileBelow p names) (hw : t.WellFormed)
    (hg : Grows t P t') : t'.FileBelow p names := by
  obtain ⟨hne, root, bytes, hroot, he⟩ := hf
  obtain ⟨bytes', he'⟩ := hg.isFileAt he
  have hdir := FileTree.isDirAt_iff.1 (hw.isDirAt_of_append hne he)
  exact ⟨hne, root, bytes', hg.follow hroot hdir, he'⟩

theorem FileTree.FoundIn.fileBelow {f : Found} {root : Location} (hf : t.FoundIn p root f)
    (hfile : f.isFile = true) : t.FileBelow p f.names := by
  cases he : f.entry with
  | file bytes => exact ⟨hf.names_ne_nil, root, bytes, hf.start_leads, he ▸ hf.entry_eq⟩
  | dir | link => simp [Found.isFile, he] at hfile

namespace Site

/-- A file that a run may have written stands here: the copy of a file of a resource, or a page at
a configured name or at a link that was made from a pattern. -/
inductive MayWrite (s : Site) (output : Path) (t : FileTree) (loc : Location) : Prop
  | copy (resource : Resource) (names : List String) (hr : resource ∈ s.config.resources)
      (hfile : t.FileBelow resource.source names)
      (hloc : t.follow true (Found.pathBelow (output.join ⟨resource.destination⟩) names) = .ok loc)
  | page (page : Page) (hpage : .ok page ∈ s.pages)
      (hlink : page.link ∈ s.config.templates.common.keys ∨ s.links.Fills page.link)
      (hloc : t.follow true (output.join ⟨page.link⟩) = .ok loc)

theorem MayWrite.grows (hm : s.MayWrite output t loc) (hw : t.WellFormed)
    (he : t.entryAt loc = some (.file bytes)) (hg : Grows t P t') : s.MayWrite output t' loc := by
  cases hm with
  | copy resource names hr hfile hloc =>
    exact .copy resource names hr (hfile.grows hw hg) (hg.follow hloc he)
  | page page hpage hlink hloc => exact .page page hpage hlink (hg.follow hloc he)

/-- From one tree to the other, a run of the site writes just what it may. -/
def Writes (s : Site) (output : Path) (t t' : FileTree) : Prop :=
  Grows t (s.MayWrite output t') t'

theorem Writes.refl (hs : t.Sorted) : s.Writes output t t := Grows.refl hs

theorem Writes.trans (h : s.Writes output t t') (h' : s.Writes output t' t'') :
    s.Writes output t t'' :=
  Grows.append h h' (fun _ _ he hm => hm.grows h.sorted.toWellFormed he h') fun _ hm => hm

theorem writes_copyEntry {resource : Resource} {f : Found} (hr : resource ∈ s.config.resources)
    (hs : r.tree.Sorted) (hfile : f.isFile = true → r.tree.FileBelow resource.source f.names) :
    s.Writes output r.tree
      (Run.copyEntry (output.join ⟨resource.destination⟩) r f).1.tree := by
  obtain ⟨hgrows, -⟩ := Run.copyEntry_grows hs rfl
  exact hgrows.mono fun loc ⟨hisFile, hloc⟩ =>
    .copy resource f.names hr ((hfile hisFile).grows hs.toWellFormed hgrows) hloc

theorem writes_copyResource {resource : Resource} (hr : resource ∈ s.config.resources)
    (hs : r.tree.Sorted) :
    s.Writes output r.tree (Run.copyResource output r resource).1.tree := by
  unfold Run.copyResource
  split
  · exact .refl hs
  rename_i found hwalk
  obtain ⟨root, -, hroot, -⟩ := FileTree.exists_root_of_walk hwalk
  refine Run.advance_invariant (I := fun r' => s.Writes output r.tree r'.tree) (.refl hs) ?_
  intro f hf r' hr'
  have hfound := (FileTree.mem_walk_iff hs.toWellFormed hwalk hroot).1 hf
  exact hr'.trans (writes_copyEntry hr hr'.sorted fun hfile =>
    (hfound.fileBelow hfile).grows hs.toWellFormed hr')

theorem link_of_mem_pages {page : Page} (hpage : .ok page ∈ s.pages) :
    page.link ∈ s.config.templates.common.keys ∨ s.links.Fills page.link := by
  obtain ⟨hcommon, hother⟩ := (plans_of_mem_pages hpage).link
  by_cases hsort : page.sort = .common
  · exact .inl (hcommon hsort)
  · exact .inr (hother hsort)

theorem writes_renderPage {planned : PlannedPage} (hmem : planned ∈ s.pages)
    (hs : r.tree.Sorted) : s.Writes output r.tree (Run.renderPage e h output r planned).1.tree := by
  have hends := Run.renderPage_ends e h output r planned
  generalize Run.renderPage e h output r planned = a at hends ⊢
  cases hends with
  | unplanned | unread | unrendered => exact .refl hs
  | @unwritten page _ _ engine _ _ _ _ hwrite | @written page _ _ engine _ _ _ hwrite =>
    obtain ⟨hgrows, -⟩ := Run.writePage_grows (r := { r with engine }) hs hwrite
    exact hgrows.mono fun loc hloc => .page page hmem (link_of_mem_pages hmem) hloc

/-- A run writes just what it may, whatever its engine and however it ends. -/
theorem writes_generate (hs : r.tree.Sorted) :
    s.Writes output r.tree (s.generate e h output r).1.tree :=
  generate_invariant (I := s.Writes output r.tree) (.refl hs)
    (fun _ hmem _ hr' => hr'.trans (writes_copyResource hmem hr'.sorted))
    fun _ hmem _ hr' => hr'.trans (writes_renderPage hmem hr'.sorted)

end Site
end DocSite
