import DocSite.FileTree.Walk
import DocSite.Proofs.FileTree.Join

namespace DocSite.FileTree

variable {t t' : FileTree} {last : Bool} {loc l : Location} {e : Entry} {p q : Path}

theorem stat_eq_ok_iff : t.stat p = .ok (loc, e) ↔
    t.follow true p = .ok loc ∧ t.entryAt loc = some e := by
  unfold stat
  rw [bind_eq_ok]
  constructor
  · rintro ⟨l, hl, h⟩
    split at h
    · rename_i f he
      obtain ⟨rfl, rfl⟩ := Prod.mk.inj (Except.ok.inj h)
      exact ⟨hl, he⟩
    · simp at h
  · rintro ⟨hl, he⟩
    exact ⟨loc, hl, by rw [he]⟩

theorem hasPath_iff : t.hasPath p = true ↔
    ∃ loc e, t.follow true p = .ok loc ∧ t.entryAt loc = some e := by
  simp only [← stat_eq_ok_iff]
  unfold hasPath
  cases t.stat p with
  | error cause => exact iff_of_false (by simp [Except.toBool]) (by simp)
  | ok place => exact iff_of_true rfl ⟨place.1, place.2, rfl⟩

theorem isDir_iff : t.isDir p = true ↔ ∃ loc, t.follow true p = .ok loc ∧ t.isDirAt loc = true := by
  simp only [isDirAt_iff, ← stat_eq_ok_iff]
  unfold isDir
  split
  · rename_i loc h
    exact iff_of_true rfl ⟨loc, h⟩
  · rename_i h
    exact iff_of_false Bool.false_ne_true fun ⟨loc, hloc⟩ => h loc hloc

theorem isFile_iff : t.isFile p = true ↔
    ∃ loc bytes, t.follow true p = .ok loc ∧ t.entryAt loc = some (.file bytes) := by
  simp only [← stat_eq_ok_iff]
  unfold isFile
  split
  · rename_i loc bytes h
    exact iff_of_true rfl ⟨loc, bytes, h⟩
  · rename_i h
    exact iff_of_false Bool.false_ne_true fun ⟨loc, bytes, hloc⟩ => h loc bytes hloc

theorem read_eq_ok_iff {bytes : ByteArray} : t.read p = .ok bytes ↔
    ∃ loc, t.follow true p = .ok loc ∧ t.entryAt loc = some (.file bytes) := by
  simp only [← stat_eq_ok_iff]
  unfold read
  rw [bind_eq_ok]
  constructor
  · rintro ⟨⟨loc, e⟩, hstat, h⟩
    cases e with
    | file bytes' => exact ⟨loc, Except.ok.inj h ▸ hstat⟩
    | dir | link => simp at h
  · rintro ⟨loc, hstat⟩
    exact ⟨(loc, .file bytes), hstat, rfl⟩

theorem follow_join_name {name : String} (h : t.follow true p = .ok loc)
    (hdir : t.isDirAt loc = true) (hname : IsName name) (he : t.entryAt (loc ++ [name]) = some e)
    (hlast : last = true → ∀ target, e ≠ .link target) :
    t.follow last (p.join ⟨name⟩) = .ok (loc ++ [name]) := by
  refine follow_join h hdir (Path.isAbsolute_eq_false_of_no_separator hname.2.2.2) fun links => ?_
  rw [Path.segments_of_no_separator hname.2.2.2]
  have hstep := isStep_of_isName hname
  cases e with
  | link target =>
    exact .atLink hdir hstep he (Bool.eq_false_iff.2 fun hl => hlast hl target rfl)
  | dir => exact .child hdir hstep he (by simp) .arrived
  | file bytes => exact .child hdir hstep he (by simp) .arrived

theorem pathBelow_concat (start : Path) (names : List String) (name : String) :
    Found.pathBelow start (names ++ [name]) = (Found.pathBelow start names).join ⟨name⟩ := by
  simp [Found.pathBelow]

theorem pathBelow_ne_empty {start : Path} {names : List String} (hstart : start.text ≠ "")
    (hnames : ∀ name ∈ names, '/' ∉ name.toList) : (Found.pathBelow start names).text ≠ "" := by
  induction names generalizing start with
  | nil => exact hstart
  | cons name names ih =>
    refine ih (Path.join_ne_empty hstart ?_) fun n hn => hnames n (.tail _ hn)
    exact Path.isAbsolute_eq_false_of_no_separator (hnames name (.head _))

theorem pathBelow_join {names : List String} (hp : p.text ≠ "") (hq : q.text ≠ "")
    (hqrel : q.isAbsolute = false) (hnames : ∀ name ∈ names, '/' ∉ name.toList) :
    Found.pathBelow (p.join q) names = p.join (Found.pathBelow q names) := by
  induction names generalizing q with
  | nil => rfl
  | cons name names ih =>
    have hname := Path.isAbsolute_eq_false_of_no_separator (hnames name (.head _))
    have hrel : (q.join ⟨name⟩).isAbsolute = false := by rw [Path.isAbsolute_join hq hname, hqrel]
    have hassoc := Path.join_assoc hp hq hqrel hname
    have hrest := ih (Path.join_ne_empty hq hname) hrel fun n hn => hnames n (.tail _ hn)
    rw [← hassoc] at hrest
    exact hrest

/-- The segments of a path with names put below it are its own and the names, up to an empty one. -/
theorem segments_pathBelow {names : List String} (hq : q.text ≠ "") (hqrel : q.isAbsolute = false)
    (hnames : ∀ name ∈ names, IsName name) :
    (Found.pathBelow q names).isAbsolute = false ∧
      namesOf (Found.pathBelow q names).segments = namesOf q.segments ++ names ∧
      (".." ∉ q.segments → ".." ∉ (Found.pathBelow q names).segments) := by
  induction names generalizing q with
  | nil => simpa [Found.pathBelow] using hqrel
  | cons name names ih =>
    have hname := hnames name (.head _)
    have hone := Path.segments_of_no_separator hname.2.2.2
    have hrel := Path.isAbsolute_eq_false_of_no_separator hname.2.2.2
    have hmem : namesOf (q.join ⟨name⟩).segments = namesOf q.segments ++ [name] ∧
        (".." ∉ q.segments → ".." ∉ (q.join ⟨name⟩).segments) := by
      have hadd : namesOf [name] = [name] := namesOf_cons (isStep_of_isName hname)
      have hup : ".." ≠ name := Ne.symm hname.2.2.1
      rcases Path.segments_join hq hrel with h | ⟨segs, hsegs, h⟩
      · rw [h, hone, namesOf_append, hadd]
        simp [hup]
      · have hempty : namesOf [""] = [] := rfl
        rw [h, hsegs, hone, namesOf_append, namesOf_append, hadd, hempty]
        simp [hup]
    obtain ⟨habs, hnamesOf, hup⟩ := ih (Path.join_ne_empty hq hrel)
      (by rw [Path.isAbsolute_join hq hrel, hqrel]) fun n hn => hnames n (.tail _ hn)
    refine ⟨habs, ?_, fun h => hup (hmem.2 h)⟩
    rw [Found.pathBelow, List.foldl_cons]
    exact hnamesOf.trans (by rw [hmem.1, List.append_assoc, List.singleton_append])

theorem follow_pathBelow (hw : t.WellFormed) {names : List String} (hne : names ≠ [])
    (h : t.follow true p = .ok loc) (he : t.entryAt (loc ++ names) = some e)
    (hlast : last = true → ∀ target, e ≠ .link target) :
    t.follow last (Found.pathBelow p names) = .ok (loc ++ names) := by
  induction names generalizing p loc with
  | nil => exact absurd rfl hne
  | cons name names ih =>
    have hdir : t.isDirAt loc = true := hw.isDirAt_of_append hne he
    have hname : IsName name := hw.isName he (by simp)
    by_cases hn : names = []
    · subst hn
      exact follow_join_name h hdir hname he hlast
    · have hassoc : loc ++ name :: names = (loc ++ [name]) ++ names := by simp
      rw [hassoc] at he ⊢
      -- what has an entry below it is a directory, and a path passes a directory
      have hchild : t.entryAt (loc ++ [name]) = some .dir :=
        isDirAt_iff.1 (hw.isDirAt_of_append hn he)
      exact ih hn (follow_join_name h hdir hname hchild (by simp)) he

/-- An entry that a walk from `start` finds in a tree. -/
structure FoundIn (t : FileTree) (start : Path) (root : Location) (f : Found) : Prop where
  start_leads : t.follow true start = .ok root
  names_ne_nil : f.names ≠ []
  path_eq : f.path = Found.pathBelow start f.names
  entry_eq : t.entryAt (root ++ f.names) = some f.entry

theorem exists_root_of_walk {start : Path} {found : List Found} (h : t.walk start = .ok found) :
    ∃ root e, t.follow true start = .ok root ∧ t.entryAt root = some e := by
  obtain ⟨place, hplace, -⟩ := bind_eq_ok.1 h
  exact ⟨place.1, place.2, stat_eq_ok_iff.1 hplace⟩

theorem walk_of_follow {start : Path} {root : Location} (hroot : t.follow true start = .ok root)
    (he : t.entryAt root = some e) : t.walk start = .ok ((t.below root).map fun g =>
      ⟨g.1.drop root.length, Found.pathBelow start (g.1.drop root.length), g.2⟩) := by
  rw [walk, stat_eq_ok_iff.2 ⟨hroot, he⟩]
  rfl

theorem mem_walk_iff (hw : t.WellFormed) {start : Path} {found : List Found}
    (h : t.walk start = .ok found) {root : Location} (hroot : t.follow true start = .ok root)
    {f : Found} : f ∈ found ↔ t.FoundIn start root f := by
  obtain ⟨l, e, hl, he⟩ := exists_root_of_walk h
  obtain rfl := eq_of_eq_ok hl hroot
  obtain rfl := eq_of_eq_ok (walk_of_follow hl he) h
  rw [List.mem_map]
  constructor
  · rintro ⟨⟨l', e'⟩, hmem, rfl⟩
    obtain ⟨hl', ⟨names, rfl⟩, hne⟩ := hw.mem_below_iff.1 hmem
    simp only [List.drop_left]
    exact ⟨hroot, by simpa using hne, rfl, hl'⟩
  · intro hf
    refine ⟨(l ++ f.names, f.entry), hw.mem_below_iff.2 ⟨hf.entry_eq, ?_, ?_⟩, ?_⟩
    · exact List.prefix_append _ _
    · simpa using hf.names_ne_nil
    · simp only [List.drop_left, ← hf.path_eq]

theorem pairwise_names_of_walk (hw : t.WellFormed) {start : Path} {found : List Found}
    (h : t.walk start = .ok found) : found.Pairwise fun f g => f.names ≠ g.names := by
  obtain ⟨root, e, hroot, he⟩ := exists_root_of_walk h
  obtain rfl := eq_of_eq_ok (walk_of_follow hroot he) h
  have hordered : (t.below root).Pairwise fun a b => ¬b.1 <+: a.1 := hw.ordered.filter _
  rw [List.pairwise_map]
  refine hordered.imp_of_mem fun {a b} ha hb hnot heq => hnot ?_
  have hdrop : a.1.drop root.length = b.1.drop root.length := heq
  have heq : a.1 = b.1 := by
    rw [← List.prefix_iff_eq_append.1 (FileTree.mem_below_iff.1 ha).2.1,
      ← List.prefix_iff_eq_append.1 (FileTree.mem_below_iff.1 hb).2.1, hdrop]
  exact heq ▸ List.prefix_refl _

theorem FoundIn.isDirAt_root (hw : t.WellFormed) {start : Path} {root : Location} {f : Found}
    (hf : t.FoundIn start root f) : t.isDirAt root = true :=
  hw.isDirAt_of_append hf.names_ne_nil hf.entry_eq

theorem FoundIn.follow_path (hw : t.WellFormed) {start : Path} {root : Location} {f : Found}
    (hf : t.FoundIn start root f) (last : Bool)
    (hlast : last = true → ∀ target, f.entry ≠ .link target) :
    t.follow last f.path = .ok (root ++ f.names) := by
  rw [hf.path_eq]
  exact follow_pathBelow hw hf.names_ne_nil hf.start_leads hf.entry_eq hlast

end DocSite.FileTree
