import DocSite.Proofs.Config
import DocSite.Proofs.FileTree.Location
import Mathlib.Data.List.Forall2
import Mathlib.Data.List.Induction

namespace DocSite.Config

open FileTree (pathOf pathOf_join parent_pathOf_concat parent_pathOf_nil
  segments_pathOf_join follow_pathOf forall_isName_concat hasPath_pathOf_concat)

variable {t : FileTree} {env : Environment} {bar : Option Bool} {c : Config} {cause : ConfigError}
variable {dir loc : Location} {name : String} {p : Path}

def fileIn (dir : Location) : Path := pathOf (dir ++ [fileName.text])

/-- A directory offers a configuration file: something of that name stands in it, and if this is a
link, it leads to something. -/
def Offers (t : FileTree) (dir : Location) : Prop :=
  ∃ e, t.entryAt (dir ++ [fileName.text]) = some e ∧
    ∀ target, e = .link target → t.hasPath (fileIn dir) = true

/-- The nearest of the directories from the current one up to the root that offer a configuration
file: all others are above it. -/
structure Nearest (t : FileTree) (dir : Location) : Prop where
  onWay : dir <+: t.current
  offers : Offers t dir
  above : ∀ other, other <+: t.current → Offers t other → other <+: dir

/-- A search that goes from a path to its parent until it finds a configuration file, and what it
ends with. -/
inductive Searches (t : FileTree) : Path → Option Path → Prop
  | found {p : Path} (hpath : t.hasPath (p.join fileName) = true) :
      Searches t p (some (p.join fileName))
  | atTop {p : Path} (hpath : t.hasPath (p.join fileName) = false) (hparent : p.parent = none) :
      Searches t p none
  | above {p q : Path} {found : Option Path} (hpath : t.hasPath (p.join fileName) = false)
      (hparent : p.parent = some q) (h : Searches t q found) : Searches t p found

theorem Searches.unique {found found' : Option Path} (h : Searches t p found)
    (h' : Searches t p found') : found = found' := by
  induction h with
  | found hpath => cases h' <;> simp_all
  | atTop hpath hparent => cases h' <;> simp_all
  | above hpath hparent _ ih =>
    cases h' with
    | found hpath' => simp [hpath] at hpath'
    | atTop _ hparent' => simp [hparent] at hparent'
    | above _ hparent' h' =>
      obtain rfl := Option.some.inj (hparent.symm.trans hparent')
      exact ih h'

theorem isName_fileName : IsName fileName.text := by decide

theorem join_fileName (hnames : ∀ name ∈ dir, IsName name) :
    (pathOf dir).join fileName = fileIn dir :=
  pathOf_join hnames isName_fileName

@[simp] theorem upward_nil : upward [] = [[]] := rfl

@[simp] theorem upward_concat : upward (loc ++ [name]) = (loc ++ [name]) :: upward loc := by
  rw [upward, List.length_append, List.length_singleton, List.range_succ_eq_map, List.map_cons,
    List.map_map]
  refine congr (congrArg _ (List.take_of_length_le (by simp))) (List.map_congr_left fun n _ => ?_)
  simp only [Function.comp, Nat.succ_eq_add_one, Nat.add_sub_add_right]
  exact List.take_append_of_le_length (Nat.sub_le ..)

theorem mem_upward_iff : dir ∈ upward loc ↔ dir <+: loc := by
  induction loc using List.reverseRecOn with
  | nil => simp
  | append_singleton loc name ih => rw [upward_concat, List.mem_cons, ih, List.prefix_concat_iff]

/-- The first location upwards that passes a test has all others that pass it above it. -/
theorem prefix_of_find?_upward {test : Location → Bool}
    (h : (upward loc).find? test = some dir) {other : Location} (hother : other <+: loc)
    (htest : test other = true) : other <+: dir := by
  induction loc using List.reverseRecOn with
  | nil =>
    rw [List.prefix_nil.1 hother]
    exact List.nil_prefix
  | append_singleton loc name ih =>
    rw [upward_concat, List.find?_cons] at h
    split at h
    · exact Option.some.inj h ▸ hother
    · rename_i hno
      rcases List.prefix_concat_iff.1 hother with rfl | hother
      · simp [hno] at htest
      · exact ih h hother

theorem searches_upward (hnames : ∀ name ∈ loc, IsName name) :
    Searches t (pathOf loc)
      (((upward loc).map fun loc => (pathOf loc).join fileName).find? t.hasPath) := by
  -- a parent is the location without its last name, so the induction is from the root down
  induction loc using List.reverseRecOn with
  | nil =>
    rw [upward_nil, List.map_singleton, List.find?_singleton]
    split
    · rename_i hpath
      exact .found hpath
    · rename_i hpath
      exact .atTop (by simpa using hpath) parent_pathOf_nil
  | append_singleton loc name ih =>
    rw [upward_concat, List.map_cons, List.find?_cons]
    split
    · rename_i hpath
      exact .found hpath
    · rename_i hpath
      refine .above hpath (parent_pathOf_concat hnames) (ih fun other hother => ?_)
      exact hnames other (List.mem_append_left _ hother)

theorem searches_iff (hnames : ∀ name ∈ t.current, IsName name) {found : Option Path} :
    Searches t t.currentPath found ↔ found = discover? t := by
  have hends : Searches t t.currentPath (discover? t) := searches_upward hnames
  constructor
  · exact fun h => h.unique hends
  · rintro rfl
    exact hends

section Discovered

variable (hw : t.WellFormed) (hcur : t.isDirAt t.current = true)
include hw hcur

theorem isDirAt_of_onWay (h : dir <+: t.current) : t.isDirAt dir = true := by
  obtain ⟨rest, hrest⟩ := h
  exact hw.isDirAt_left (hrest ▸ hcur)

theorem Nearest.isName (h : Nearest t dir) : ∀ name ∈ dir, IsName name :=
  hw.forall_isName (isDirAt_of_onWay hw hcur h.onWay)

theorem hasPath_join_fileName_iff (h : dir <+: t.current) :
    t.hasPath ((pathOf dir).join fileName) = true ↔ Offers t dir := by
  have hdir := isDirAt_of_onWay hw hcur h
  rw [join_fileName (hw.forall_isName hdir)]
  exact hasPath_pathOf_concat hw hdir isName_fileName

/-- What is discovered is the file of the nearest directory, unless no directory offers one. -/
theorem discover?_cases :
    (∃ dir, Nearest t dir ∧ discover? t = some (fileIn dir)) ∨
      ((∀ dir, dir <+: t.current → ¬Offers t dir) ∧ discover? t = none) := by
  have hoffers : ∀ {dir}, dir <+: t.current → _ := hasPath_join_fileName_iff hw hcur
  rw [discover?, List.find?_map]
  cases hfound : (upward t.current).find? (t.hasPath ∘ fun loc => (pathOf loc).join fileName) with
  | some dir =>
    have honWay := mem_upward_iff.1 (List.mem_of_find?_eq_some hfound)
    have hpath := List.find?_some hfound
    have hnear : Nearest t dir := by
      refine ⟨honWay, (hoffers honWay).1 hpath, fun other hother h => ?_⟩
      exact prefix_of_find?_upward hfound hother ((hoffers hother).2 h)
    exact .inl ⟨dir, hnear, congrArg some (join_fileName (hnear.isName hw hcur))⟩
  | none =>
    refine .inr ⟨fun dir hdir h => ?_, rfl⟩
    exact List.find?_eq_none.1 hfound dir (mem_upward_iff.2 hdir) ((hoffers hdir).2 h)

theorem discover?_of_nearest (h : Nearest t dir) : discover? t = some (fileIn dir) := by
  rcases discover?_cases hw hcur with ⟨dir', h', hfound⟩ | ⟨hnone, -⟩
  · have hle := h.above dir' h'.onWay h'.offers
    rwa [(h'.above dir h.onWay h.offers).eq_of_length_le hle.length_le]
  · exact absurd h.offers (hnone dir h.onWay)

end Discovered

/-- A name is resolved against a directory: an absolute one stands for itself, and the segments of
another one come behind the names of the directory. -/
inductive Resolves (dir : Location) (name : String) : Path → Prop
  | absolute (h : Path.isAbsolute ⟨name⟩ = true) : Resolves dir name ⟨name⟩
  | relative {p : Path} (h : Path.isAbsolute ⟨name⟩ = false)
      (hsegs : p.segments = "" :: (dir ++ Path.segments ⟨name⟩)) : Resolves dir name p

theorem resolves_iff (hnames : ∀ name ∈ dir, IsName name) :
    Resolves dir name p ↔ p = (pathOf dir).join ⟨name⟩ := by
  cases habs : Path.isAbsolute ⟨name⟩ with
  | true =>
    rw [Path.join_of_isAbsolute habs]
    constructor
    · rintro (- | ⟨h, -⟩)
      · rfl
      · simp [habs] at h
    · rintro rfl
      exact .absolute habs
  | false =>
    rw [← Path.segments_inj, segments_pathOf_join hnames habs]
    constructor
    · rintro (h | ⟨-, hsegs⟩)
      · simp [habs] at h
      · exact hsegs
    · exact .relative habs

/-- A configuration is what a document says, with the names of templates and the sources of
resources resolved against a directory. A choice made for the progress bar wins. -/
structure Document.Yields (d : Document) (dir : Location) (bar : Option Bool) (c : Config) :
    Prop where
  progressBar : c.progressBar = bar.getD d.progressBar
  docsUrl : c.docsUrl = d.docsUrl
  filenames : c.filenames = d.filenames
  vars : c.vars = d.vars
  common : List.Forall₂ (fun named template => template.1 = named.1 ∧
    Resolves dir named.2 template.2) d.templates.common c.templates.common
  forNamespace : Resolves dir (d.templates.forNamespace.getD "templates/namespace.html")
    c.templates.forNamespace
  forPackage : Resolves dir (d.templates.forPackage.getD "templates/package.html")
    c.templates.forPackage
  forClass : Resolves dir (d.templates.forClass.getD "templates/class.html") c.templates.forClass
  forSource : Resolves dir (d.templates.forSource.getD "templates/source.html")
    c.templates.forSource
  resources : List.Forall₂ (fun named r => Resolves dir named.1 r.source ∧
    r.destination = Text.trimChar '/' named.2) d.resources c.resources

theorem Document.yields_resolve (d : Document) (hnames : ∀ name ∈ dir, IsName name)
    (bar : Option Bool) (file : Option Path) : d.Yields dir bar { d.resolve (pathOf dir) with
      file, progressBar := bar.getD d.progressBar } := by
  have hjoin : ∀ name, Resolves dir name ((pathOf dir).join ⟨name⟩) := fun _ =>
    (resolves_iff hnames).2 rfl
  refine ⟨rfl, rfl, rfl, rfl, ?_, hjoin _, hjoin _, hjoin _, hjoin _, ?_⟩
  · exact List.forall₂_map_right_iff.2 (List.forall₂_same.2 fun _ _ => ⟨rfl, hjoin _⟩)
  · exact List.forall₂_map_right_iff.2 (List.forall₂_same.2 fun _ _ => ⟨hjoin _, rfl⟩)

inductive Refused (t : FileTree) (env : Environment) (dir : Location) : ConfigError → Prop
  | unreadable {cause : FileError} (hread : t.readText (fileIn dir) = .error cause) :
      Refused t env dir (.unreadable cause)
  | malformed {text : String} (hread : t.readText (fileIn dir) = .ok text)
      (hdocument : document? text = none) : Refused t env dir .malformed
  | unset {text : String} {d : Document} {cause : ConfigError}
      (hread : t.readText (fileIn dir) = .ok text) (hdocument : document? text = some d)
      (hexpand : d.expand env = .error cause) : Refused t env dir cause
  | invalid {text : String} {d d' : Document} {cause : ConfigError}
      (hread : t.readText (fileIn dir) = .ok text) (hdocument : document? text = some d)
      (hexpand : d.expand env = .ok d')
      (hvalid : (d'.resolve (pathOf dir)).validate = .error cause) : Refused t env dir cause

theorem parent_fileIn (hnames : ∀ name ∈ dir, IsName name) :
    (fileIn dir).parent = some (pathOf dir) :=
  parent_pathOf_concat (forall_isName_concat hnames isName_fileName)

theorem ofFile_fileIn_eq_error_iff (hnames : ∀ name ∈ dir, IsName name) :
    ofFile t env (fileIn dir) = .error cause ↔ Refused t env dir cause := by
  rw [ofFile_eq_error_iff, parent_fileIn hnames, Option.getD_some]
  simp only [ofToml_eq_error_iff]
  constructor
  · rintro (⟨e, hread, rfl⟩ | ⟨text, hread, ⟨hno, rfl⟩ | ⟨d, hd, h | ⟨d', hd', h⟩⟩⟩)
    · exact .unreadable hread
    · exact .malformed hread hno
    · exact .unset hread hd h
    · exact .invalid hread hd hd' h
  · intro h
    cases h with
    | unreadable hread => exact .inl ⟨_, hread, rfl⟩
    | malformed hread hno => exact .inr ⟨_, hread, .inl ⟨hno, rfl⟩⟩
    | unset hread hd h => exact .inr ⟨_, hread, .inr ⟨_, hd, .inl h⟩⟩
    | invalid hread hd hd' h => exact .inr ⟨_, hread, .inr ⟨_, hd, .inr ⟨_, hd', h⟩⟩⟩

theorem load_of_discover? (h : discover? t = some p) : load t env none bar =
    (ofFile t env p >>= fun c => .ok { c with progressBar := bar.getD c.progressBar }) := by
  simp only [load, h]

theorem load_of_discover?_eq_none (h : discover? t = none) : load t env none bar =
    .ok { standard t.currentPath with progressBar := bar.getD true } := by
  simp only [load, h]
  rfl

theorem baseDir_of_file (hnames : ∀ name ∈ dir, IsName name) (hfile : c.file = some (fileIn dir)) :
    c.baseDir = pathOf dir := by
  rw [baseDir, hfile, Option.bind_some, parent_fileIn hnames, Option.getD_some]

section Nearest

variable (hw : t.WellFormed) (hcur : t.isDirAt t.current = true)
include hw hcur

theorem Nearest.load_eq_error_iff (h : Nearest t dir) :
    load t env none bar = .error cause ↔ Refused t env dir cause := by
  rw [load_of_discover? (discover?_of_nearest hw hcur h), bind_eq_error,
    ofFile_fileIn_eq_error_iff (h.isName hw hcur)]
  simp

theorem Nearest.load_eq_ok (h : Nearest t dir) (hload : load t env none bar = .ok c) :
    c.file = some (fileIn dir) ∧ c.Valid ∧
      ∃ text d d', t.readText (fileIn dir) = .ok text ∧ document? text = some d ∧
        d.expand env = .ok d' ∧ d'.Yields dir bar c := by
  have hnames := h.isName hw hcur
  rw [load_of_discover? (discover?_of_nearest hw hcur h)] at hload
  obtain ⟨c₁, h₁, hload⟩ := bind_eq_ok.1 hload
  obtain ⟨text, d, d', hread, hd, hd', hvalid, rfl⟩ := ofFile_eq_ok_iff.1 h₁
  obtain rfl := Except.ok.inj hload
  rw [parent_fileIn hnames, Option.getD_some] at hvalid ⊢
  -- neither check looks at the progress bar or at the file
  obtain ⟨hplaceholder, hdestination⟩ := valid_of_validate hvalid
  exact ⟨rfl, ⟨hplaceholder, hdestination⟩, text, d, d', hread, hd, hd',
    d'.yields_resolve hnames bar _⟩

theorem load_eq_standard_iff :
    load t env none bar = .ok { standard t.currentPath with progressBar := bar.getD true } ↔
      ∀ dir, dir <+: t.current → ¬Offers t dir := by
  rcases discover?_cases hw hcur with ⟨near, hnear, -⟩ | ⟨hnone, hfound⟩
  · refine iff_of_false (fun h => ?_) fun hnone => hnone near hnear.onWay hnear.offers
    -- what is read from a file remembers it
    have hfile := (hnear.load_eq_ok hw hcur h).1
    simp [standard, Document.resolve] at hfile
  · exact iff_of_true (load_of_discover?_eq_none hfound) hnone

end Nearest

/-- Without a named file the search goes from the current directory upwards, which ends, and the
nearest directory that offers a configuration file decides. If its file is refused, this is the
result, whatever stands above. Otherwise the result is what the file says, with its names resolved
against that directory. Just if no directory offers one, it is the standard configuration of the
current directory. -/
theorem load_nearest (hw : t.WellFormed) (hcur : t.isDirAt t.current = true) (env : Environment)
    (bar : Option Bool) :
    (∀ found, Searches t t.currentPath found ↔ found = discover? t) ∧
    ((∃ dir, Nearest t dir) ∨
      ((∀ dir, dir <+: t.current → ¬Offers t dir) ∧ discover? t = none)) ∧
    (∀ dir, Nearest t dir →
      discover? t = some (fileIn dir) ∧
      (∀ cause, load t env none bar = .error cause ↔ Refused t env dir cause) ∧
      ∀ c, load t env none bar = .ok c →
        c.file = some (fileIn dir) ∧ c.baseDir = pathOf dir ∧
        t.follow true c.baseDir = .ok dir ∧ c.Valid ∧
        ∃ text d d', t.readText (fileIn dir) = .ok text ∧ document? text = some d ∧
          d.expand env = .ok d' ∧ d'.Yields dir bar c) ∧
    (load t env none bar = .ok { standard t.currentPath with progressBar := bar.getD true } ↔
      ∀ dir, dir <+: t.current → ¬Offers t dir) := by
  refine ⟨fun found => searches_iff (hw.forall_isName hcur), ?_, fun dir hnear => ?_,
    load_eq_standard_iff hw hcur⟩
  · exact (discover?_cases hw hcur).imp_left fun ⟨dir, h, _⟩ => ⟨dir, h⟩
  · refine ⟨discover?_of_nearest hw hcur hnear, fun cause => hnear.load_eq_error_iff hw hcur,
      fun c h => ?_⟩
    obtain ⟨hfile, hvalid, hdocument⟩ := hnear.load_eq_ok hw hcur h
    have hbase := baseDir_of_file (hnear.isName hw hcur) hfile
    have hplace : t.follow true (pathOf dir) = .ok dir :=
      follow_pathOf hw (isDirAt_of_onWay hw hcur hnear.onWay)
    exact ⟨hfile, hbase, hbase ▸ hplace, hvalid, hdocument⟩

/-- Three configuration files one above the other: an empty one, a directory in the place of one and
a link that leads nowhere. -/
def threeFiles : FileTree where
  entries := [
    (["apidoc.toml"], .file .empty), (["p"], .dir), (["p", "apidoc.toml"], .dir),
    (["p", "src"], .dir), (["p", "src", "apidoc.toml"], .link ⟨"gone"⟩)]
  current := ["p", "src"]

theorem threeFiles_wellFormed : threeFiles.WellFormed :=
  ⟨by decide +kernel, by decide +kernel, by decide +kernel⟩

theorem not_offers_src : ¬Offers threeFiles ["p", "src"] := by
  rintro ⟨e, he, hlink⟩
  obtain rfl : .link ⟨"gone"⟩ = e := Option.some.inj he
  exact absurd (hlink _ rfl) (by decide +kernel)

theorem nearest_threeFiles : Nearest threeFiles ["p"] where
  onWay := ⟨["src"], rfl⟩
  offers := ⟨.dir, rfl, nofun⟩
  above other hother h := by
    have hway : other <+: ["p"] ++ ["src"] := hother
    rcases List.prefix_concat_iff.1 hway with rfl | hother
    · exact absurd h not_offers_src
    · exact hother

/-- The same directories with a file to be read where the directory of that name was. -/
def readableFile : FileTree where
  entries := [
    (["apidoc.toml"], .file .empty), (["p"], .dir),
    (["p", "apidoc.toml"], .file "[resources]\nres = \"css\"\n".toUTF8),
    (["p", "src"], .dir), (["p", "src", "apidoc.toml"], .link ⟨"gone"⟩)]
  current := ["p", "src"]

theorem readableFile_wellFormed : readableFile.WellFormed :=
  ⟨by decide +kernel, by decide +kernel, by decide +kernel⟩

theorem nearest_readableFile : Nearest readableFile ["p"] where
  onWay := ⟨["src"], rfl⟩
  offers := ⟨_, rfl, nofun⟩
  above other hother h := by
    have hway : other <+: ["p"] ++ ["src"] := hother
    rcases List.prefix_concat_iff.1 hway with rfl | hother
    · obtain ⟨e, he, hlink⟩ := h
      obtain rfl : .link ⟨"gone"⟩ = e := Option.some.inj he
      exact absurd (hlink _ rfl) (by decide +kernel)
    · exact hother

/-- The file of the root could be read, and the nearer one cannot. If it can, it is read, and its
directory is the one that names start from. -/
theorem load_threeFiles :
    threeFiles.WellFormed ∧ threeFiles.isDirAt threeFiles.current = true ∧
    Nearest threeFiles ["p"] ∧ Offers threeFiles [] ∧
    load threeFiles [] none none = .error (.unreadable .isDirectory) ∧
    readableFile.WellFormed ∧ readableFile.isDirAt readableFile.current = true ∧
    Nearest readableFile ["p"] ∧ Offers readableFile [] ∧
    ∃ c, load readableFile [] none none = .ok c ∧ c.file = some ⟨"/p/apidoc.toml"⟩ ∧
      c.baseDir = ⟨"/p"⟩ ∧ readableFile.follow true c.baseDir = .ok ["p"] ∧
      c.resources = [⟨⟨"/p/res"⟩, "css"⟩] := by
  refine ⟨threeFiles_wellFormed, rfl, nearest_threeFiles, ⟨_, rfl, nofun⟩, ?refused,
    readableFile_wellFormed, rfl, nearest_readableFile, ⟨_, rfl, nofun⟩, ?read⟩
  case refused =>
    obtain ⟨-, -, hnearest, -⟩ := load_nearest threeFiles_wellFormed rfl [] none
    exact ((hnearest _ nearest_threeFiles).2.1 _).2 (.unreadable rfl)
  case read =>
    obtain ⟨-, -, hnearest, -⟩ := load_nearest readableFile_wellFormed rfl [] none
    obtain ⟨-, -, hread⟩ := hnearest _ nearest_readableFile
    have hresources : (load readableFile [] none none).toOption.map Config.resources =
        some [⟨⟨"/p/res"⟩, "css"⟩] := by decide +kernel
    cases hload : load readableFile [] none none with
    | error cause => simp [hload, Except.toOption] at hresources
    | ok c =>
      obtain ⟨hfile, hbase, hplace, -⟩ := hread c hload
      rw [hload] at hresources
      exact ⟨c, rfl, hfile, hbase, hplace, Option.some.inj hresources⟩

end DocSite.Config
