import DocSite.Proofs.FileTree.Aim
import DocSite.Proofs.Site.Confinement

namespace DocSite

open FileTree (Grows Found FoundIn GrowsInReach namesOf)
open DocSite.Path (GoesDown)

variable {σ : Type} {r r' : Run σ} {output : Path} {top loc : Location}
variable {resource : Resource} {resources : List Resource} {t u u' : FileTree} {P : Location → Prop}

/-- A file below the source of a resource. -/
structure ResourceFile where
  resource : Resource
  /-- The names from the source down. -/
  names : List String
  bytes : ByteArray

def ResourceFile.target (f : ResourceFile) (output : Path) : Path :=
  Found.pathBelow (output.join ⟨f.resource.destination⟩) f.names

def FileTree.Found.file? (f : Found) (resource : Resource) : Option ResourceFile :=
  match f.entry with
  | .file bytes => some ⟨resource, f.names, bytes⟩
  | _ => none

namespace FileTree

def filesOf (t : FileTree) (resource : Resource) : List ResourceFile :=
  match t.walk resource.source with
  | .ok found => found.filterMap fun f => f.file? resource
  | .error _ => []

/-- The files below the sources of resources, in the order in which they are copied. -/
def files (t : FileTree) (resources : List Resource) : List ResourceFile :=
  resources.flatMap t.filesOf

/-- Of some files copied in their order, this one is the last whose copy stands at a location. -/
def LastCopy (t : FileTree) (output : Path) (files : List ResourceFile) (loc : Location)
    (f : ResourceFile) : Prop :=
  ∃ before after, files = before ++ f :: after ∧ t.follow true (f.target output) = .ok loc ∧
    ∀ g ∈ after, t.follow true (g.target output) ≠ .ok loc

/-- What a location holds when some files have been copied: the bytes of the last file with a copy
there, else what it held before, or a directory where nothing was. -/
inductive Mirrors (t : FileTree) (output : Path) (files : List ResourceFile) (u : FileTree)
    (loc : Location) : Prop
  | copy (f : ResourceFile) (hlast : u.LastCopy output files loc f)
      (hentry : u.entryAt loc = some (.file f.bytes))
  | kept (hno : ∀ f ∈ files, u.follow true (f.target output) ≠ .ok loc)
      (hentry : u.entryAt loc = t.entryAt loc)
  | created (hno : ∀ f ∈ files, u.follow true (f.target output) ≠ .ok loc)
      (hnone : t.entryAt loc = none) (hentry : u.entryAt loc = some .dir)

end FileTree

open FileTree (LastCopy Mirrors)

/-- What holds when the files in `done` have been copied. -/
structure Mirrored (t : FileTree) (output : Path) (top : Location) (done : List ResourceFile)
    (u : FileTree) : Prop where
  grows : GrowsInReach t top u
  placed : ∀ f ∈ done, ∃ loc e, u.follow true (f.target output) = .ok loc ∧ u.entryAt loc = some e
  mirrors : ∀ loc, t.Mirrors output done u loc

namespace Mirrored

variable {done : List ResourceFile} {f : ResourceFile} {q : Path}

/-- The path of a copy leads to the same place when more is there. -/
theorem follow_iff (h : Mirrored t output top done u) (hgrows : Grows u P u') (hf : f ∈ done) :
    u'.follow true (f.target output) = .ok loc ↔ u.follow true (f.target output) = .ok loc := by
  obtain ⟨l, e, hl, he⟩ := h.placed f hf
  rw [hl, hgrows.follow hl he]

theorem placed_grows (h : Mirrored t output top done u) (hgrows : Grows u P u') :
    ∀ f ∈ done, ∃ loc e, u'.follow true (f.target output) = .ok loc ∧ u'.entryAt loc = some e := by
  intro f hf
  obtain ⟨loc, e, hloc, he⟩ := h.placed f hf
  obtain ⟨e', he', -⟩ := hgrows.within.entry _ _ he
  exact ⟨loc, e', hgrows.follow hloc he, he'⟩

/-- Files that are copied elsewhere do not count. -/
theorem lastCopy_append (h : Mirrored t output top done u) (hgrows : Grows u P u')
    {more : List ResourceFile} (hmore : ∀ g ∈ more, u'.follow true (g.target output) ≠ .ok loc)
    (hlast : u.LastCopy output done loc f) : u'.LastCopy output (done ++ more) loc f := by
  obtain ⟨before, after, rfl, hloc, hafter⟩ := hlast
  refine ⟨before, after ++ more, by simp, (h.follow_iff hgrows (by simp)).2 hloc, fun g hg => ?_⟩
  rcases List.mem_append.1 hg with hg | hg
  · rw [ne_eq, h.follow_iff hgrows (by simp [hg])]
    exact hafter g hg
  · exact hmore g hg

/-- Creating directories in reach changes no copy. -/
theorem createDirs (h : Mirrored t output top done u) (hgrows : Grows u P u')
    (hentry : ∀ loc, u'.entryAt loc = u.entryAt loc ∨
      (u.entryAt loc = none ∧ u'.entryAt loc = some .dir ∧ t.Reaches top loc)) :
    Mirrored t output top done u' where
  grows := h.grows.step hgrows fun loc => (hentry loc).imp_right fun hnew => hnew.2.2
  placed := h.placed_grows hgrows
  mirrors loc := by
    have hno : (∀ f ∈ done, u.follow true (f.target output) ≠ .ok loc) →
        ∀ f ∈ done, u'.follow true (f.target output) ≠ .ok loc := fun hno f hf => by
      rw [ne_eq, h.follow_iff hgrows hf]
      exact hno f hf
    cases h.mirrors loc with
    | copy f hlast he =>
      have hlast' : u'.LastCopy output (done ++ []) loc f :=
        h.lastCopy_append hgrows (by simp) hlast
      rw [List.append_nil] at hlast'
      rcases hentry loc with heq | ⟨hnone, -⟩
      · exact .copy f hlast' (heq.trans he)
      · simp [hnone] at he
    | kept hold he =>
      rcases hentry loc with heq | ⟨hnone, hdir, -⟩
      · exact .kept (hno hold) (heq.trans he)
      · exact .created (hno hold) (he ▸ hnone) hdir
    | created hold hnone he =>
      rcases hentry loc with heq | ⟨hnone', -⟩
      · exact .created (hno hold) hnone (heq.trans he)
      · simp [hnone'] at he

theorem putFile (h : Mirrored t output top done u)
    (hloc : u.follow true (f.target output) = .ok loc) (hdir : u.entryAt loc ≠ some .dir)
    (hreach : t.Reaches top loc) :
    Mirrored t output top (done ++ [f]) (u.put loc (.file f.bytes)) := by
  have hne : loc ≠ [] := by
    rintro rfl
    exact hdir rfl
  have hgrows : Grows u (· = loc) (u.put loc (.file f.bytes)) :=
    FileTree.putFile_grows h.grows.sorted hloc hdir
  obtain ⟨hloc', he⟩ : (u.put loc (.file f.bytes)).follow true (f.target output) = .ok loc ∧
      (u.put loc (.file f.bytes)).entryAt loc = some (.file f.bytes) :=
    FileTree.follow_putFile h.grows.sorted hloc hdir
  have hother : ∀ l, l ≠ loc → ∀ g ∈ [f],
      (u.put loc (.file f.bytes)).follow true (g.target output) ≠ .ok l := by
    intro l hl g hg heq
    rw [List.mem_singleton.1 hg, hloc'] at heq
    exact hl (Except.ok.inj heq).symm
  refine ⟨h.grows.step hgrows fun l => ?_, fun g hg => ?_, fun l => ?_⟩
  · by_cases hl : l = loc
    · exact .inr (hl ▸ hreach)
    · exact .inl (by rw [FileTree.entryAt_put hne, if_neg hl])
  · rcases List.mem_append.1 hg with hg | hg
    · exact h.placed_grows hgrows g hg
    · exact ⟨loc, _, List.mem_singleton.1 hg ▸ hloc', he⟩
  · by_cases hl : l = loc
    · subst hl
      exact .copy f ⟨done, [], rfl, hloc', by simp⟩ he
    have hkept : (u.put loc (.file f.bytes)).entryAt l = u.entryAt l := by
      rw [FileTree.entryAt_put hne, if_neg hl]
    have hno : (∀ g ∈ done, u.follow true (g.target output) ≠ .ok l) → ∀ g ∈ done ++ [f],
        (u.put loc (.file f.bytes)).follow true (g.target output) ≠ .ok l := by
      intro hno g hg
      rcases List.mem_append.1 hg with hg | hg
      · rw [ne_eq, h.follow_iff hgrows hg]
        exact hno g hg
      · exact hother l hl g hg
    cases h.mirrors l with
    | copy g hlast hg =>
      exact .copy g (h.lastCopy_append hgrows (hother l hl) hlast) (hkept.trans hg)
    | kept hold hg => exact .kept (hno hold) (hkept.trans hg)
    | created hold hnone hg => exact .created (hno hold) hnone (hkept.trans hg)

end Mirrored

namespace FileTree

variable {f : Found}

theorem Found.file?_of_isFile_eq_false (h : f.isFile = false) : f.file? resource = none := by
  unfold Found.file?
  split
  · rename_i hentry
    simp [Found.isFile, hentry] at h
  · rfl

theorem Found.exists_file?_of_isFile (resource : Resource) (h : f.isFile = true) :
    ∃ bytes, f.entry = .file bytes ∧ f.file? resource = some ⟨resource, f.names, bytes⟩ := by
  unfold Found.isFile at h
  split at h
  · rename_i bytes hentry
    exact ⟨bytes, hentry, by simp [Found.file?, hentry]⟩
  · simp at h

/-- A file that was found is copied with its bytes, unless it is copied onto itself. -/
theorem copyFile_of_foundIn {p q : Path} {root : Location} {bytes : ByteArray} (hw : t.WellFormed)
    (hfound : t.FoundIn p root f) (hbytes : f.entry = .file bytes)
    (hcopy : t.copyFile f.path q = .ok u) : ∃ loc, t.follow true q = .ok loc ∧
      t.entryAt loc ≠ some .dir ∧ (loc ≠ root ++ f.names → u = t.put loc (.file bytes)) := by
  obtain ⟨source, e, bytes', loc, hstat, hread, -, hloc, hdir, rfl⟩ :=
    copyFile_eq_ok_iff.1 hcopy
  have hfollow := hfound.follow_path hw true (by simp [hbytes])
  obtain rfl := eq_of_eq_ok (stat_eq_ok_iff.1 hstat).1 hfollow
  have hread' : t.read f.path = .ok bytes :=
    read_eq_ok_iff.2 ⟨_, hfollow, hbytes ▸ hfound.entry_eq⟩
  obtain rfl := eq_of_eq_ok hread hread'
  exact ⟨loc, hloc, hdir, fun hne => by rw [if_neg hne]⟩

end FileTree

/-- The output is a directory, the destination of a resource goes down from it, and the source is
out of reach of the output. -/
structure Separated (t : FileTree) (output : Path) (top : Location) (resource : Resource) :
    Prop where
  output_leads : t.follow true output = .ok top
  isDir : t.isDirAt top = true
  destination : GoesDown ⟨resource.destination⟩
  source : ∀ root, t.AimsAt resource.source root → t.OutOfReach top root

namespace Run

variable {done : List ResourceFile} {f : Found} {found : List Found}

theorem ensureParent_stats {path : Path} {cause : Option SiteError}
    (h : r.ensureParent path = (r', cause)) : r'.stats = r.stats := by
  unfold ensureParent at h
  split at h <;> rw [← (Prod.mk.inj h).1]

theorem ensureParent_mirrored {q : Path} {cause : Option SiteError}
    (h : Mirrored t output top done r.tree) (hsep : Separated t output top resource)
    (hq : q.GoesDown) (hparent : r.ensureParent (output.join q) = (r', cause)) :
    Mirrored t output top done r'.tree := by
  have htop := h.grows.follow hsep.output_leads (FileTree.isDirAt_iff.1 hsep.isDir)
  unfold ensureParent at hparent
  split at hparent
  · rwa [← (Prod.mk.inj hparent).1]
  · rename_i dir hdir
    rw [← (Prod.mk.inj hparent).1]
    exact h.createDirs (P := fun _ => True) (FileTree.createDirAll_grows h.grows.sorted)
      (h.grows.createDirAll htop (h.grows.within.isDirAt hsep.isDir) hq hdir)

theorem copyEntry_mirrored (h : Mirrored t output top done r.tree)
    (hsep : Separated t output top resource) (hwalk : r.tree.walk resource.source = .ok found)
    (hf : f ∈ found)
    (hok : copyEntry (output.join ⟨resource.destination⟩) r f = (r', none)) :
    Mirrored t output top (done ++ (f.file? resource).toList) r'.tree ∧
      r'.stats.resources = r.stats.resources + (f.file? resource).toList.length := by
  have hends := copyEntry_ends (output.join ⟨resource.destination⟩) r f
  rw [hok] at hends
  cases hends with
  | skipped hfile => simpa [Found.file?_of_isFile_eq_false hfile] using h
  | @copied r₁ tree hfile hparent hcopy =>
    obtain ⟨bytes, hbytes, hsome⟩ := Found.exists_file?_of_isFile resource hfile
    obtain ⟨root, -, hroot, -⟩ := FileTree.exists_root_of_walk hwalk
    have hfound := (FileTree.mem_walk_iff h.grows.sorted.toWellFormed hwalk hroot).1 hf
    obtain ⟨q, hq, hjoin, -⟩ := exists_goesDown_pathBelow
      (FileTree.follow_eq_ok_iff.1 hsep.output_leads).1 hsep.destination hfound.names_ne_nil
      fun name hname => h.grows.sorted.isName hfound.entry_eq (List.mem_append_right _ hname)
    rw [hjoin] at hparent hcopy
    have h₁ := ensureParent_mirrored h hsep hq hparent
    -- the source is as it was, so that the bytes that are copied are those that were found
    have hgrows := (ensureParent_grows h.grows.sorted hparent).1
    have hwalk₁ := h.grows.walk_eq h₁.grows hgrows hsep.source hwalk
    have hroot₁ := hgrows.follow hroot (FileTree.isDirAt_iff.1
      (hfound.isDirAt_root h.grows.sorted.toWellFormed))
    have hfound₁ := (FileTree.mem_walk_iff h₁.grows.sorted.toWellFormed hwalk₁ hroot₁).1 hf
    obtain ⟨loc, hloc, hdir, hput⟩ :=
      FileTree.copyFile_of_foundIn h₁.grows.sorted.toWellFormed hfound₁ hbytes hcopy
    have htop₁ := h₁.grows.follow hsep.output_leads (FileTree.isDirAt_iff.1 hsep.isDir)
    have hreach := h₁.grows.reaches_of_follow htop₁ hq hloc
    have hne : loc ≠ root ++ f.names := by
      rintro rfl
      have haim := h.grows.aimsAt_of_follow hroot
      exact hsep.source root haim _ hreach (List.prefix_append _ _)
    rw [hsome, ensureParent_stats hparent, hput hne]
    refine ⟨?_, rfl⟩
    exact h₁.putFile (f := ⟨resource, f.names, bytes⟩)
      (by rw [ResourceFile.target, hjoin]; exact hloc) hdir hreach

/-- The entries that a walk found have their turns: their files are copied, and the tree grows. -/
theorem advance_copyEntry_mirrored (h : Mirrored t output top done r.tree)
    (hsep : Separated t output top resource) (hwalk : r.tree.walk resource.source = .ok found)
    (hrun : advance (copyEntry (output.join ⟨resource.destination⟩)) r found = (r', none)) :
    Mirrored t output top (done ++ found.filterMap fun f => f.file? resource) r'.tree ∧
      Grows r.tree (fun _ => True) r'.tree ∧ r'.stats.resources =
        r.stats.resources + (found.filterMap fun f => f.file? resource).length := by
  refine advance_induction (I := fun turns r' => Mirrored t output top
    (done ++ turns.filterMap fun f => f.file? resource) r'.tree ∧
    Grows r.tree (fun _ => True) r'.tree ∧ r'.stats.resources =
      r.stats.resources + (turns.filterMap fun f => f.file? resource).length) ?_ ?_ hrun
  · simpa using ⟨h, .refl h.grows.sorted⟩
  · rintro turns f r₁ r₂ hf ⟨hmirrored, hgrows, hcount⟩ hcopy
    have hwalk₁ := h.grows.walk_eq hmirrored.grows hgrows hsep.source hwalk
    obtain ⟨hmirrored', hcount'⟩ := copyEntry_mirrored hmirrored hsep hwalk₁ hf hcopy
    have hgrows' := (copyEntry_grows hgrows.sorted hcopy).1
    have hturns : (turns ++ [f]).filterMap (fun f => f.file? resource) =
        turns.filterMap (fun f => f.file? resource) ++ (f.file? resource).toList := by
      rw [List.filterMap_append]
      cases hf : f.file? resource <;> simp [hf]
    rw [hturns, ← List.append_assoc, List.length_append, hcount', hcount]
    exact ⟨hmirrored', hgrows.trans (hgrows'.mono fun _ _ => trivial), by omega⟩

/-- What holds when some resources have been copied. -/
structure AfterCopies (r₀ : Run σ) (output : Path) (top : Location) (done : List Resource)
    (r : Run σ) : Prop where
  separated : ∀ resource ∈ done, Separated r₀.tree output top resource
  mirrored : Mirrored r₀.tree output top (r.tree.files done) r.tree
  walked : ∀ resource ∈ done, ∃ found, r.tree.walk resource.source = .ok found
  count : r.stats.resources = r₀.stats.resources + (r.tree.files done).length

theorem filesOf_of_walk {found : List Found} (hwalk : t.walk resource.source = .ok found) :
    t.filesOf resource = found.filterMap fun f => f.file? resource := by
  rw [FileTree.filesOf, hwalk]

/-- The files below sources that were walked are the same later on. -/
theorem files_eq {done : List Resource} (h : GrowsInReach t top u) (h' : GrowsInReach t top u')
    (hgrows : Grows u P u') (hsep : ∀ resource ∈ done, Separated t output top resource)
    (hwalk : ∀ resource ∈ done, ∃ found, u.walk resource.source = .ok found) :
    u'.files done = u.files done := by
  refine List.flatMap_congr fun resource hmem => ?_
  obtain ⟨found, hfound⟩ := hwalk resource hmem
  rw [filesOf_of_walk hfound,
    filesOf_of_walk (h.walk_eq h' hgrows (hsep resource hmem).source hfound)]

theorem AfterCopies.copyResource {r₀ : Run σ} {done : List Resource}
    (h : AfterCopies r₀ output top done r) (hsep : Separated r₀.tree output top resource)
    (hok : Run.copyResource output r resource = (r', none)) :
    AfterCopies r₀ output top (done ++ [resource]) r' := by
  unfold Run.copyResource at hok
  split at hok
  · simp at hok
  rename_i found hwalk
  obtain ⟨hmirrored, hgrows, hcount⟩ := advance_copyEntry_mirrored h.mirrored hsep hwalk hok
  have hfiles : r'.tree.files (done ++ [resource]) =
      r.tree.files done ++ found.filterMap fun f => f.file? resource := by
    have hwalk' := h.mirrored.grows.walk_eq hmirrored.grows hgrows hsep.source hwalk
    have hdone := files_eq h.mirrored.grows hmirrored.grows hgrows h.separated h.walked
    rw [FileTree.files, List.flatMap_append, List.flatMap_singleton, filesOf_of_walk hwalk',
      ← FileTree.files, hdone]
  refine ⟨fun m hm => ?_, hfiles ▸ hmirrored, fun m hm => ?_, ?_⟩
  · rcases List.mem_append.1 hm with hm | hm
    · exact h.separated m hm
    · exact List.mem_singleton.1 hm ▸ hsep
  · rcases List.mem_append.1 hm with hm | hm
    · obtain ⟨before, hbefore⟩ := h.walked m hm
      exact ⟨before, h.mirrored.grows.walk_eq hmirrored.grows hgrows (h.separated m hm).source
        hbefore⟩
    · rw [List.mem_singleton.1 hm]
      exact ⟨found, h.mirrored.grows.walk_eq hmirrored.grows hgrows hsep.source hwalk⟩
  · rw [hfiles, List.length_append, hcount, h.count]
    omega

theorem afterCopies (hs : r.tree.Sorted)
    (hsep : ∀ resource ∈ resources, Separated r.tree output top resource)
    (hok : advance (Run.copyResource output) r resources = (r', none)) :
    AfterCopies r output top resources r' := by
  refine advance_induction (I := fun done r' => AfterCopies r output top done r') ?_ ?_ hok
  · refine ⟨by simp, ⟨.refl hs, ?_, fun loc => .kept ?_ rfl⟩, by simp, rfl⟩ <;>
      simp [FileTree.files]
  · exact fun done resource r₁ r₂ hmem h₁ hcopy => h₁.copyResource (hsep resource hmem) hcopy

theorem file?_eq_some_iff {f : Found} {g : ResourceFile} : f.file? resource = some g ↔
    g.resource = resource ∧ g.names = f.names ∧ f.entry = .file g.bytes := by
  obtain ⟨m, names, bytes⟩ := g
  unfold FileTree.Found.file?
  split
  · rename_i hentry
    rw [hentry, Option.some.injEq, ResourceFile.mk.injEq, Entry.file.injEq]
    exact and_congr eq_comm (and_congr eq_comm Iff.rfl)
  · rename_i hentry
    exact iff_of_false (by simp) fun h => hentry _ h.2.2

/-- The files below sources are those that stand anywhere below where the sources lead. -/
theorem mem_files_iff {f : ResourceFile} (hw : t.WellFormed) : f ∈ t.files resources ↔
    f.resource ∈ resources ∧ ∃ root, t.follow true f.resource.source = .ok root ∧ f.names ≠ [] ∧
      t.entryAt (root ++ f.names) = some (.file f.bytes) := by
  rw [FileTree.files, List.mem_flatMap]
  constructor
  · rintro ⟨resource, hmem, hf⟩
    unfold FileTree.filesOf at hf
    split at hf
    case h_2 => simp at hf
    rename_i found hwalk
    obtain ⟨g, hg, hfile⟩ := List.mem_filterMap.1 hf
    obtain ⟨rfl, hnames, hentry⟩ := file?_eq_some_iff.1 hfile
    obtain ⟨root, -, hroot, -⟩ := FileTree.exists_root_of_walk hwalk
    have hfound := (FileTree.mem_walk_iff hw hwalk hroot).1 hg
    rw [hnames, ← hentry]
    exact ⟨hmem, root, hroot, hfound.names_ne_nil, hfound.entry_eq⟩
  · rintro ⟨hmem, root, hroot, hne, hentry⟩
    have hwalk := FileTree.walk_of_follow hroot
      (FileTree.isDirAt_iff.1 (hw.isDirAt_of_append hne hentry))
    have hfound : t.FoundIn f.resource.source root
        ⟨f.names, Found.pathBelow f.resource.source f.names, .file f.bytes⟩ :=
      ⟨hroot, hne, rfl, hentry⟩
    refine ⟨f.resource, hmem, ?_⟩
    rw [filesOf_of_walk hwalk]
    exact List.mem_filterMap.2 ⟨_, (FileTree.mem_walk_iff hw hwalk hroot).2 hfound,
      file?_eq_some_iff.2 ⟨rfl, rfl, rfl⟩⟩

/-- Copies of resources whose sources are out of reach of the output. Each source is there and stays
as it is, so that the files copied are those that stood below it. The path of each copy leads to a
place that holds the bytes of the last file copied there; without links in the output it is the
location of the names of the file below the destination. The copies are counted, and elsewhere
nothing changes but that missing directories are created. -/
theorem mirror_of_resources (hs : r.tree.Sorted) (houtput : r.tree.follow true output = .ok top)
    (hdir : r.tree.isDirAt top = true)
    (hdest : ∀ m ∈ resources, GoesDown ⟨m.destination⟩)
    (hsource : ∀ m ∈ resources, ∀ root, r.tree.AimsAt m.source root → r.tree.OutOfReach top root)
    (hok : advance (copyResource output) r resources = (r', none)) :
    (∀ m ∈ resources, ∃ root e, r'.tree.follow true m.source = .ok root ∧
      r'.tree.entryAt root = some e ∧
      ∀ loc, root <+: loc → r'.tree.entryAt loc = r.tree.entryAt loc) ∧
    (∀ f, f ∈ r'.tree.files resources ↔ f.resource ∈ resources ∧ ∃ root,
      r'.tree.follow true f.resource.source = .ok root ∧ f.names ≠ [] ∧
      r.tree.entryAt (root ++ f.names) = some (.file f.bytes)) ∧
    (∀ f ∈ r'.tree.files resources, ∃ loc g, r'.tree.follow true (f.target output) = .ok loc ∧
      r'.tree.LastCopy output (r'.tree.files resources) loc g ∧
      r'.tree.entryAt loc = some (.file g.bytes)) ∧
    (¬r.tree.LinkBelow top → ∀ f ∈ r'.tree.files resources,
      r'.tree.follow true (f.target output) =
        .ok (top ++ namesOf (Path.segments ⟨f.resource.destination⟩) ++ f.names)) ∧
    r'.stats.resources = r.stats.resources + (r'.tree.files resources).length ∧
    ∀ loc, (∃ f ∈ r'.tree.files resources, r'.tree.follow true (f.target output) = .ok loc) ∨
      r'.tree.entryAt loc = r.tree.entryAt loc ∨
      (r.tree.entryAt loc = none ∧ r'.tree.entryAt loc = some .dir) := by
  have h := afterCopies hs (fun m hm => ⟨houtput, hdir, hdest m hm, hsource m hm⟩) hok
  have hgrows := h.mirrored.grows
  have hw := hgrows.sorted.toWellFormed
  refine ⟨fun m hm => ?_, fun f => ?_, fun f hf => ?_, fun hlinks f hf => ?_, h.count,
    fun loc => ?_⟩
  · obtain ⟨found, hfound⟩ := h.walked m hm
    obtain ⟨root, e, hroot, he⟩ := FileTree.exists_root_of_walk hfound
    exact ⟨root, e, hroot, he, fun loc hle => hgrows.entryAt_eq (hsource m hm) hroot hle⟩
  · rw [mem_files_iff hw]
    refine and_congr_right fun hm => exists_congr fun root => and_congr_right fun hroot => ?_
    rw [hgrows.entryAt_eq (hsource _ hm) hroot (List.prefix_append _ _)]
  · obtain ⟨loc, -, hloc, -⟩ := h.mirrored.placed f hf
    cases h.mirrored.mirrors loc with
    | copy g hlast he => exact ⟨loc, g, hloc, hlast, he⟩
    | kept hno | created hno => exact absurd hloc (hno f hf)
  · obtain ⟨hmem, root, -, hne, hentry⟩ := (mem_files_iff hw).1 hf
    obtain ⟨q, hq, hjoin, hsegs⟩ := exists_goesDown_pathBelow
      (FileTree.follow_eq_ok_iff.1 houtput).1 (hdest _ hmem) hne fun name hname =>
        hw.isName hentry (List.mem_append_right _ hname)
    obtain ⟨loc, -, hloc, -⟩ := h.mirrored.placed f hf
    have htop := hgrows.follow houtput (FileTree.isDirAt_iff.1 hdir)
    have hfree := (FileTree.LinkFree.mk houtput hdir hlinks).grows hgrows.toGrows
    rw [hloc]
    rw [ResourceFile.target, hjoin] at hloc
    rw [FileTree.eq_append_namesOf_of_follow_join htop hq.1 hq.2 hfree.no_links hloc, hsegs,
      List.append_assoc]
  · cases h.mirrored.mirrors loc with
    | copy f hlast =>
      obtain ⟨before, after, hfiles, hloc, -⟩ := hlast
      exact .inl ⟨f, by simp [hfiles], hloc⟩
    | kept _ he => exact .inr (.inl he)
    | created _ hnone he => exact .inr (.inr ⟨hnone, he⟩)

/-- A fresh run over an empty output and two directories with files of one name. -/
def layered : Run Unit where
  tree := ⟨[
    (["a"], .dir), (["a", "x"], .file "1".toUTF8), (["b"], .dir), (["b", "x"], .file "2".toUTF8),
    (["b", "y"], .file "3".toUTF8), (["out"], .dir)], []⟩
  engine := ()
  progress := .fresh false

def overlaid : List Resource := [⟨⟨"a"⟩, "css"⟩, ⟨⟨"b"⟩, "css"⟩]

theorem mirror_of_resources_layered :
    ∃ r', advance (copyResource ⟨"out"⟩) layered overlaid = (r', none) ∧
      r'.stats.resources = 3 ∧ r'.tree.entryAt ["out", "css", "x"] = some (.file "2".toUTF8) ∧
      ∀ m ∈ overlaid, ∃ root, r'.tree.follow true m.source = .ok root ∧
        ∀ loc, root <+: loc → r'.tree.entryAt loc = layered.tree.entryAt loc := by
  have hsorted : layered.tree.Sorted :=
    ⟨⟨by decide +kernel, by decide +kernel, by decide +kernel⟩, by decide +kernel⟩
  have houtput : layered.tree.follow true ⟨"out"⟩ = .ok ["out"] :=
    toOption_eq_some_iff.1 (by decide +kernel)
  have hlinks : ∀ top, ¬layered.tree.LinkBelow top := fun top =>
    FileTree.not_linkBelow_of_entries (by simp [layered])
  have hok : (advance (copyResource ⟨"out"⟩) layered overlaid).2 = none := by decide +kernel
  -- by their names the sources are apart from the output, and there are no links
  have hnames : ∀ m ∈ overlaid, m.source.isAbsolute = false ∧ ".." ∉ m.source.segments ∧
      ¬namesOf m.source.segments <+: ["out"] ∧ ¬["out"] <+: namesOf m.source.segments := by
    decide +kernel
  have hout : ∀ m ∈ overlaid, ∀ root, layered.tree.AimsAt m.source root →
      layered.tree.OutOfReach ["out"] root := by
    intro m hm root haim
    obtain ⟨hrel, hup, habove, hbelow⟩ := hnames m hm
    rw [FileTree.AimsAt, hrel] at haim
    obtain rfl := haim.eq_append_namesOf hup List.nil_prefix (hlinks [])
    exact FileTree.outOfReach_of_no_links (hlinks _) habove hbelow
  have hx : (advance (copyResource ⟨"out"⟩) layered overlaid).1.tree.entryAt ["out", "css", "x"] =
      some (.file "2".toUTF8) := eq_of_beq (by decide +kernel)
  have hthree : ((advance (copyResource ⟨"out"⟩) layered overlaid).1.tree.files
      overlaid).length = 3 := by decide +kernel
  generalize hrun : advance (copyResource ⟨"out"⟩) layered overlaid = a at hok hx hthree
  obtain ⟨r', cause⟩ := a
  dsimp only at hok hx hthree
  subst hok
  obtain ⟨hkept, -, -, -, hcount, -⟩ := mirror_of_resources hsorted houtput rfl
    (by decide +kernel) hout hrun
  refine ⟨r', rfl, by rw [hcount, hthree]; rfl, hx, fun m hm => ?_⟩
  obtain ⟨root, e, hroot, -, hsame⟩ := hkept m hm
  exact ⟨root, hroot, hsame⟩

end Run

end DocSite
