import DocSite.Config.Document
import DocSite.Proofs.FileTree.Removal
import DocSite.Proofs.Mask

namespace DocSite

open FileTree (Loses InDir Refusals Found FoundIn)

variable {t t' : FileTree} {P : Location → Prop} {loc : Location} {x : Refusals}
variable {target : Path} {c : Config}

theorem FileTree.Loses.inDir (h : Loses t P t') {p : Path} (hin : t'.InDir p loc) :
    t.InDir p loc := by
  obtain ⟨root, hroot, hdir, hle⟩ := hin
  exact ⟨root, h.follow hroot (FileTree.isDirAt_iff.1 hdir), h.isDirAt hdir, hle⟩

theorem FileTree.Loses.isDir (h : Loses t P t') {p : Path} (hdir : t'.isDir p = true) :
    t.isDir p = true := by
  obtain ⟨loc, hloc, hat⟩ := FileTree.isDir_iff.1 hdir
  exact FileTree.isDir_iff.2 ⟨loc, h.follow hloc (FileTree.isDirAt_iff.1 hat), h.isDirAt hat⟩

theorem FileTree.Loses.isFile (h : Loses t P t') {p : Path} (hfile : t'.isFile p = true) :
    t.isFile p = true := by
  obtain ⟨loc, bytes, hloc, he⟩ := FileTree.isFile_iff.1 hfile
  exact FileTree.isFile_iff.2 ⟨loc, bytes, h.follow hloc he, h.entryAt_eq he⟩

namespace Wipe

/-- A page with a fixed name stands here: the file that the name leads to, or the last link on the
way to it. -/
def CommonPageAt (target : Path) (t : FileTree) (name : String) (loc : Location) : Prop :=
  t.isFile (target.join ⟨name⟩) = true ∧ t.follow false (target.join ⟨name⟩) = .ok loc

/-- A file below the target that some pattern could have named stands here. -/
def NamedPageAt (target : Path) (c : Config) (t : FileTree) (loc : Location) : Prop :=
  ∃ top names bytes, t.follow true target = .ok top ∧ names ≠ [] ∧ loc = top ++ names ∧
    t.entryAt loc = some (.file bytes) ∧
    ∃ kind pattern, (kind, pattern) ∈ c.filenames.patterns ∧ Filenames.CouldName pattern names

/-- What a wipe may take away. -/
inductive MayTake (target : Path) (c : Config) (t : FileTree) (loc : Location) : Prop
  | resource (r : Resource) (hr : r ∈ c.resources)
      (hin : t.InDir (target.join ⟨r.destination⟩) loc)
  | commonPage (name : String) (hname : name ∈ c.templates.common.keys)
      (hpage : CommonPageAt target t name loc)
  | namedPage (hpage : NamedPageAt target c t loc)

theorem CommonPageAt.exists_entry {name : String} (h : CommonPageAt target t name loc) :
    ∃ e, t.entryAt loc = some e ∧ e ≠ .dir := by
  obtain ⟨l, bytes, hl, he⟩ := FileTree.isFile_iff.1 h.1
  -- unless a link stands there, the name leads to the same place through its last link
  have hsame : (∀ dest, t.entryAt loc ≠ some (.link dest)) →
      t.entryAt loc = some (.file bytes) := by
    intro hlink
    obtain rfl := eq_of_eq_ok (FileTree.follow_true_of_false h.2 hlink) hl
    exact he
  cases hloc : t.entryAt loc with
  | none => simp [hloc] at hsame
  | some e => cases e <;> simp_all

theorem CommonPageAt.of_loses {name : String} (h : Loses t P t')
    (hpage : CommonPageAt target t' name loc) : CommonPageAt target t name loc := by
  obtain ⟨e, he, -⟩ := hpage.exists_entry
  exact ⟨h.isFile hpage.1, h.follow hpage.2 he⟩

theorem NamedPageAt.of_loses (h : Loses t P t') (hpage : NamedPageAt target c t' loc) :
    NamedPageAt target c t loc := by
  obtain ⟨top, names, bytes, htop, hne, rfl, he, hpattern⟩ := hpage
  have hdir := FileTree.isDirAt_iff.1 (h.wellFormed.isDirAt_of_append hne he)
  exact ⟨top, names, bytes, h.follow htop hdir, hne, rfl, h.entryAt_eq he, hpattern⟩

theorem resource_loses (hw : t.WellFormed) (x : Refusals) (target : Path) (r : Resource) :
    Loses t (t.InDir (target.join ⟨r.destination⟩)) (resource x target t r).1 := by
  unfold resource
  dsimp only
  split
  · exact FileTree.removeAll_loses hw
  · exact .refl hw

theorem resources_loses (hw : t.WellFormed) (x : Refusals) (target : Path) (c : Config) :
    Loses t (fun loc => ∃ r ∈ c.resources, t.InDir (target.join ⟨r.destination⟩) loc)
      (resources x target c t).1 := by
  refine FileTree.attemptAll_loses (.refl hw) fun t' h r hr => ?_
  exact (resource_loses h.wellFormed x target r).mono fun loc hin => ⟨r, hr, h.inDir hin⟩

theorem commonPage_loses (hw : t.WellFormed) (x : Refusals) (target : Path) (name : String) :
    Loses t (CommonPageAt target t name) (commonPage x target t name).1 := by
  unfold commonPage
  dsimp only
  split
  · rename_i hfile
    exact (FileTree.tryRemoveFile_loses hw x).mono fun loc h => ⟨hfile, h.1⟩
  · exact .refl hw

theorem commonPages_loses (hw : t.WellFormed) (x : Refusals) (target : Path) (c : Config) :
    Loses t (fun loc => ∃ name ∈ c.templates.common.keys, CommonPageAt target t name loc)
      (commonPages x target c t).1 := by
  refine FileTree.attemptAll_loses (.refl hw) fun t' h name hname => ?_
  exact (commonPage_loses h.wellFormed x target name).mono fun loc hpage =>
    ⟨name, hname, hpage.of_loses h⟩

theorem isNamed_iff {f : Found} : isNamed c f = true ↔ (∃ bytes, f.entry = .file bytes) ∧
    ∃ kind pattern, (kind, pattern) ∈ c.filenames.patterns ∧
      Filenames.CouldName pattern f.names := by
  have hfile : f.isFile = true ↔ ∃ bytes, f.entry = .file bytes := by
    unfold FileTree.Found.isFile
    cases f.entry <;> simp
  simp only [isNamed, Bool.and_eq_true, hfile, List.any_eq_true, masks, List.mem_filterMap,
    ← Mask.exists_acceptsFile_iff, Prod.exists]
  refine and_congr_right fun _ => ?_
  constructor
  · rintro ⟨m, ⟨kind, pattern, hp, hm⟩, hacc⟩
    exact ⟨kind, pattern, hp, m, hm, hacc⟩
  · rintro ⟨kind, pattern, hp, m, hm, hacc⟩
    exact ⟨m, ⟨kind, pattern, hp, hm⟩, hacc⟩

theorem namedPages_loses (hw : t.WellFormed) (x : Refusals) (target : Path) (c : Config) :
    Loses t (NamedPageAt target c t) (namedPages x target c t).1 := by
  unfold namedPages
  split
  · exact .refl hw
  split
  · exact .refl hw
  · rename_i found hwalk
    obtain ⟨top, -, htop, -⟩ := FileTree.exists_root_of_walk hwalk
    refine FileTree.attemptAll_loses (.refl hw) fun t' h f hf => ?_
    obtain ⟨hf, hnamed⟩ := List.mem_filter.1 hf
    have hf := (FileTree.mem_walk_iff hw hwalk htop).1 hf
    obtain ⟨⟨bytes, hbytes⟩, hpattern⟩ := isNamed_iff.1 hnamed
    refine (FileTree.tryRemoveFile_loses h.wellFormed x).mono fun loc ⟨hloc, e, he, _⟩ => ?_
    have hmine := hf.follow_path hw false (by simp)
    obtain rfl := eq_of_eq_ok (h.follow hloc he) hmine
    exact ⟨top, f.names, bytes, htop, hf.names_ne_nil, rfl, hbytes ▸ hf.entry_eq, hpattern⟩

/-- A wipe takes away only what it may, with links in the tree and whatever is refused. -/
theorem wipe_loses (hw : t.WellFormed) (x : Refusals) (target : Path) (c : Config) :
    Loses t (MayTake target c t) (wipe target c t x).1 := by
  unfold wipe
  split
  · exact .refl hw
  have hresources : Loses t (MayTake target c t) (resources x target c t).1 :=
    (resources_loses hw x target c).mono fun loc ⟨r, hr, hin⟩ => .resource r hr hin
  -- later phases work on a smaller tree, and what they may take there they may take here
  have hcommon : Loses t (MayTake target c t)
      ((resources x target c t).andThen (commonPages x target c)).1 :=
    FileTree.andThen_loses hresources <| (commonPages_loses hresources.wellFormed x target c).mono
      fun loc ⟨name, hname, hpage⟩ => .commonPage name hname (hpage.of_loses hresources)
  exact FileTree.andThen_loses hcommon <| (namedPages_loses hcommon.wellFormed x target c).mono
    fun loc hpage => .namedPage (hpage.of_loses hcommon)

end Wipe

/-- In a tree without links a wipe takes away the copies of resources, the files with fixed names
below the target and the files that a pattern could have named. Nothing else changes. -/
theorem entryAt_wipe_of_no_links (target : Path) (c : Config) (x : Refusals) (hw : t.WellFormed)
    (hlinks : ∀ loc dest, t.entryAt loc ≠ some (.link dest)) (loc : Location) :
    (wipe target c t x).1.entryAt loc = t.entryAt loc ∨
      (wipe target c t x).1.entryAt loc = none ∧
        ((∃ r ∈ c.resources, t.InDir (target.join ⟨r.destination⟩) loc) ∨
          (∃ name ∈ c.templates.common.keys, ∃ bytes,
            t.follow true (target.join ⟨name⟩) = .ok loc ∧ t.entryAt loc = some (.file bytes)) ∨
          Wipe.NamedPageAt target c t loc) := by
  rcases (Wipe.wipe_loses hw x target c).entry loc with hkept | ⟨hgone, htaken⟩
  · exact .inl hkept
  refine .inr ⟨hgone, ?_⟩
  cases htaken with
  | resource r hr hin => exact .inl ⟨r, hr, hin⟩
  | namedPage hpage => exact .inr (.inr hpage)
  | commonPage name hname hpage =>
    have hloc := FileTree.follow_true_of_false hpage.2 (hlinks loc)
    obtain ⟨l, bytes, hl, he⟩ := FileTree.isFile_iff.1 hpage.1
    obtain rfl := eq_of_eq_ok hloc hl
    exact .inr (.inl ⟨name, hname, bytes, hloc, he⟩)

namespace Wipe

/-- An output with the copy of a resource, the page of a type, a page with a fixed name and a file
that was put there by hand. -/
def usedOutput : FileTree where
  entries := [
    (["out"], .dir), (["out", ".htaccess"], .file .empty), (["out", "class-A.html"], .file .empty),
    (["out", "css"], .dir), (["out", "css", "a.css"], .file .empty),
    (["out", "index.html"], .file .empty)]
  current := []

def oneOfEach : Config :=
  Config.Document.resolve {
    resources := [("res", "css")]
    templates := { common := [("index.html", "overview.html")] } } ⟨"."⟩

theorem usedOutput_wellFormed : usedOutput.WellFormed :=
  ⟨by decide +kernel, by decide +kernel, by decide +kernel⟩

theorem usedOutput_no_links (loc : Location) (dest : Path) :
    usedOutput.entryAt loc ≠ some (.link dest) := by
  intro h
  have hloc : loc ≠ [] := by
    rintro rfl
    simp at h
  have hmem := FileTree.mem_of_entryAt hloc h
  simp [usedOutput] at hmem

theorem wipe_usedOutput_keeps_htaccess :
    (wipe ⟨"out"⟩ oneOfEach usedOutput).1.entryAt ["out", ".htaccess"] = some (.file .empty) := by
  have hframe := entryAt_wipe_of_no_links ⟨"out"⟩ oneOfEach {}
    usedOutput_wellFormed usedOutput_no_links ["out", ".htaccess"]
  rcases hframe with hkept | ⟨hgone, -⟩
  · exact hkept
  · exact absurd hgone (by decide +kernel)

end Wipe
end DocSite
