import DocSite.Proofs.FileTree.Creation

namespace DocSite.FileTree
open Std

variable {T u u' v : FileTree} {last : Bool} {links : Nat} {loc l top : Location} {e : Entry}
variable {segs : List String} {p q : Path} {bytes : ByteArray}

/-- Ascending lists of the same entries are equal. -/
theorem eq_of_sorted {x y : List (Location × Entry)}
    (hx : x.Pairwise fun a b => compareLocations a.1 b.1 = .lt)
    (hy : y.Pairwise fun a b => compareLocations a.1 b.1 = .lt) (hmem : ∀ e, e ∈ x ↔ e ∈ y) :
    x = y := by
  have hne : ∀ {a b : Location × Entry}, compareLocations a.1 b.1 = .lt → a ≠ b := by
    rintro a _ hlt rfl
    simp [ReflCmp.compare_self] at hlt
  apply List.Perm.eq_of_pairwise _ hx hy
    ((List.perm_ext_iff_of_nodup (hx.imp hne) (hy.imp hne)).2 hmem)
  intro a b _ _ hab hba
  simp [OrientedCmp.gt_of_lt hab] at hba

/-- Trees in ascending order with the same entries are equal. -/
theorem Sorted.ext (hu : u.Sorted) (hv : v.Sorted) (hcurrent : u.current = v.current)
    (hentry : ∀ loc, u.entryAt loc = v.entryAt loc) : u = v := by
  have hlist : u.entries = v.entries := by
    apply eq_of_sorted hu.sorted hv.sorted
    intro ⟨loc, e⟩
    constructor
    · intro he
      exact mem_of_entryAt (hu.named _ he).1 (hentry loc ▸ hu.entryAt_of_mem he)
    · intro he
      exact mem_of_entryAt (hv.named _ he).1 (hentry loc ▸ hv.entryAt_of_mem he)
  cases u
  cases v
  simp_all

/-- Trees in ascending order that agree below a location list the same entries there. -/
theorem below_eq_of_agree (hu : u.Sorted) (hv : v.Sorted)
    (hentry : ∀ l, loc <+: l → l ≠ loc → u.entryAt l = v.entryAt l) : u.below loc = v.below loc := by
  apply eq_of_sorted (hu.sorted.filter _) (hv.sorted.filter _)
  intro ⟨l, e⟩
  rw [← below, ← below, hu.mem_below_iff, hv.mem_below_iff]
  constructor
  · rintro ⟨he, hle, hne⟩
    exact ⟨hentry l hle hne ▸ he, hle, hne⟩
  · rintro ⟨he, hle, hne⟩
    exact ⟨(hentry l hle hne).symm ▸ he, hle, hne⟩

theorem Within.link {dest : Path} (h : Within u v) (hlink : u.entryAt loc = some (.link dest)) :
    v.entryAt loc = some (.link dest) := by
  obtain ⟨e, he, halike⟩ := h.entry _ _ hlink
  cases e <;> simp only [Entry.Alike] at halike
  rw [he, halike]

/-- Where a path leads to something in a tree, it leads to the same place in a smaller tree with the
same links, or something on its way is not there. -/
theorem followFrom_or_notFound (hw : Within v T) (hv : v.WellFormed)
    (hlinks : ∀ loc dest, T.entryAt loc = some (.link dest) → v.entryAt loc = some (.link dest))
    (h : Leads T last links loc segs l) (he : T.entryAt l = some e) (hdir : v.isDirAt loc = true) :
    v.followFrom last links loc segs = .ok l ∨
      v.followFrom last links loc segs = .error .notFound := by
  induction h with
  | arrived => exact .inl followFrom_nil
  | here _ hseg _ ih =>
    rw [followFrom_cons, if_neg (by simpa using hdir), if_pos hseg]
    exact ih he hdir
  | up _ _ ih =>
    rw [followFrom_cons, if_neg (by simpa using hdir), if_neg (by simp), if_pos rfl]
    exact ih he (hv.isDirAt_dropLast (isDirAt_iff.1 hdir))
  | missing _ _ hentry => simp [hentry] at he
  | atLink _ hseg hentry hlast =>
    left
    simp [followFrom_cons, hdir, hseg.1, hseg.2.1, hseg.2.2, hlinks _ _ hentry, hlast]
  | @through _ _ _ rest _ _ _ hseg hentry hlast htarget _ ih =>
    have hgo : ¬(rest = [] ∧ last = false) := fun h => by simp [hlast h.1] at h
    simp only [followFrom_cons, hdir, hseg.1, hseg.2.1, hseg.2.2, hlinks _ _ hentry]
    simp only [Bool.not_true, Bool.false_eq_true, if_false, or_self, Bool.not_eq_true', hgo,
      htarget]
    apply ih he
    split
    · rfl
    · exact hdir
  | @child _ loc seg rest _ f _ hseg hentry hlink h ih =>
    rw [followFrom_cons, if_neg (by simpa using hdir), if_neg (not_or.2 ⟨hseg.1, hseg.2.1⟩),
      if_neg hseg.2.2]
    by_cases hrest : rest = []
    · -- the last name may be missing
      subst hrest
      obtain rfl := h.unique .arrived
      left
      split
      · rfl
      · rename_i target hlink'
        have halike := hw.link hlink'
        rw [hentry] at halike
        exact absurd (Option.some.inj halike) (hlink target)
      · exact followFrom_nil
    · split
      · exact .inr (if_neg hrest)
      · rename_i target hlink'
        have halike := hw.link hlink'
        rw [hentry] at halike
        exact absurd (Option.some.inj halike) (hlink target)
      · rename_i f' _ hentry'
        have hTdir := h.isDirAt_of_ne_nil hrest
        exact ih he (hw.isDirAt_of_entryAt hentry' hTdir)

/-- The second tree has all that the first has and nothing that the final tree has not; what it
has more is as it will be. Both are the same outside a location, and neither has other links than
the final tree. -/
structure Replay (T : FileTree) (top : Location) (u v : FileTree) : Prop where
  left : u.Sorted
  right : v.Sorted
  within : Within u v
  final : Within v T
  entry : ∀ loc, v.entryAt loc = u.entryAt loc ∨ v.entryAt loc = T.entryAt loc
  link : ∀ loc dest, T.entryAt loc = some (.link dest) → u.entryAt loc = some (.link dest)
  outside : ∀ loc, ¬top <+: loc → v.entryAt loc = u.entryAt loc

namespace Replay

theorem follow (h : Replay T top u v) (hp : u.follow last p = .ok loc) :
    v.follow last p = .ok loc := by
  refine follow_within h.within hp fun dest hdest hnone => ?_
  have hlink := h.link _ _ (h.final.link hdest)
  simp [hnone] at hlink

theorem isDir (h : Replay T top u v) (hp : u.isDir p = true) : v.isDir p = true := by
  obtain ⟨loc, hloc, hdir⟩ := isDir_iff.1 hp
  exact isDir_iff.2 ⟨loc, h.follow hloc, h.within.isDirAt hdir⟩

/-- The first tree in the end is the final tree, and so is the second. -/
theorem eq_final (h : Replay T top T v) : v = T := by
  refine h.right.ext h.left h.final.current.symm fun loc => ?_
  rcases h.entry loc with heq | heq <;> exact heq

/-- An entry that stands in the final tree is put into both trees. -/
theorem put (h : Replay T top u v) (hu : (u.put loc e).Sorted) (hv : (v.put loc e).Sorted)
    (hne : loc ≠ []) (hT : Within (u.put loc e) T) : Replay T top (u.put loc e) (v.put loc e) where
  left := hu
  right := hv
  within := by
    refine ⟨h.within.current, fun l f hf => ?_⟩
    rw [entryAt_put hne] at hf ⊢
    split
    · rename_i hl
      rw [if_pos hl] at hf
      exact ⟨e, rfl, Option.some.inj hf ▸ .refl e⟩
    · rename_i hl
      rw [if_neg hl] at hf
      exact h.within.entry l f hf
  final := by
    refine ⟨h.final.current, fun l f hf => ?_⟩
    rw [entryAt_put hne] at hf
    split at hf
    · rename_i hl
      exact hT.entry l f (by rw [entryAt_put hne, if_pos hl, hf])
    · exact h.final.entry l f hf
  entry l := by
    rw [entryAt_put hne, entryAt_put hne]
    split
    · exact .inl rfl
    · exact h.entry l
  link l dest hl := by
    rw [entryAt_put hne]
    split
    · -- what stands there in the end is alike what is put there
      rename_i heq
      obtain ⟨f, hf, halike⟩ := hT.entry l e (by rw [entryAt_put hne, if_pos heq])
      rw [hl] at hf
      obtain rfl := Option.some.inj hf
      cases e <;> simp only [Entry.Alike] at halike
      rw [halike]
    · exact h.link l dest hl
  outside l hl := by
    rw [entryAt_put hne, entryAt_put hne]
    split
    · rfl
    · exact h.outside l hl

/-- A directory that the second tree has already is put into the first. -/
theorem put_left (h : Replay T top u v) (hu : (u.put loc .dir).Sorted)
    (hnone : u.entryAt loc = none) (hdir : v.entryAt loc = some .dir) :
    Replay T top (u.put loc .dir) v := by
  have hne : loc ≠ [] := by
    rintro rfl
    simp at hnone
  refine ⟨hu, h.right, ⟨h.within.current, fun l f hf => ?_⟩, h.final, fun l => ?_,
    fun l dest hl => ?_, fun l hl => ?_⟩
  · rw [entryAt_put hne] at hf
    split at hf
    · rename_i heq
      obtain rfl := Option.some.inj hf
      exact ⟨.dir, heq ▸ hdir, .refl _⟩
    · exact h.within.entry l f hf
  · rw [entryAt_put hne]
    split
    · rename_i heq
      exact .inl (heq ▸ hdir)
    · exact h.entry l
  · have hold := h.link l dest hl
    rw [entryAt_put hne, if_neg]
    · exact hold
    · rintro rfl
      simp [hnone] at hold
  · rw [entryAt_put hne]
    split
    · rename_i heq
      exact heq ▸ hdir
    · exact h.outside l hl

end Replay

def createLast (t : FileTree) (p : Path) : FileTree × Option FileError :=
  match t.createDir p with
  | .ok t => (t, none)
  | .error e => (t, if t.isDir p then none else some e)

variable {n : Nat}

theorem createDirs_of_notFound (hp : p.parent = some q) (h : u.createDir p = .error .notFound) :
    u.createDirs p (n + 1) =
      match u.createDirs q n with
      | (t, some e) => (t, some e)
      | (t, none) => t.createLast p := by
  rw [createDirs, hp, h]
  rfl

theorem createDirs_of_ne (hp : p.parent = some q) (h : u.createDir p ≠ .error .notFound) :
    u.createDirs p (n + 1) = u.createLast p := by
  rw [createDirs, hp, createLast]
  dsimp only
  split
  · rename_i t heq
    rw [heq]
  · rename_i heq
    exact absurd heq h
  · rename_i e _ heq
    rw [heq]

theorem createLast_grows {P : Location → Prop} (hs : u.Sorted) :
    Grows u P (u.createLast p).1 := by
  unfold createLast
  split
  · rename_i t heq
    exact createDir_grows hs heq
  · exact .refl hs

theorem exists_follow_of_createLast (hs : u.Sorted) (hp : p.parent = some q)
    (h : u.createLast p = (u', none)) : ∃ loc e,
      u'.follow false (withoutSeparators p) = .ok loc ∧ u'.entryAt loc = some e := by
  unfold createLast at h
  split at h
  · rename_i t heq
    obtain ⟨loc, -, hnone, rfl, hloc⟩ := createDir_eq_ok hs heq
    obtain rfl := (Prod.mk.inj h).1
    have hne : loc ≠ [] := by
      rintro rfl
      simp at hnone
    exact ⟨loc, .dir, hloc, by rw [entryAt_put hne, if_pos rfl]⟩
  · obtain ⟨rfl, hfail⟩ := Prod.mk.inj h
    have hdir : u.isDir p = true := by
      split at hfail
      · assumption
      · simp at hfail
    exact exists_follow_withoutSeparators hp hdir

namespace Replay

theorem createLast (h : Replay T top u v) (hp : p.parent = some q)
    (hu : u.createLast p = (u', none)) (hT : Within u' T) :
    v.createDir p ≠ .error .notFound ∧ ∃ v', v.createLast p = (v', none) ∧ Replay T top u' v' := by
  have hstays : v.isDir p = true → v.createDir p ≠ .error .notFound ∧
      v.createLast p = (v, none) := by
    intro hdir
    have hv := createDir_of_isDir hp hdir
    exact ⟨by simp [hv], by simp [FileTree.createLast, hv, hdir]⟩
  unfold FileTree.createLast at hu
  split at hu
  · rename_i t hcreate
    obtain rfl := (Prod.mk.inj hu).1
    obtain ⟨loc, hloc, hnone, rfl, -⟩ := createDir_eq_ok h.left hcreate
    have hne : loc ≠ [] := by
      rintro rfl
      simp at hnone
    have hsorted : (u.put loc .dir).Sorted := put_sorted h.left hloc (by simp [hnone])
    have hv := h.follow hloc
    cases hentry : v.entryAt loc with
    | none =>
      have hcreate' : v.createDir p = .ok (v.put loc .dir) :=
        bind_eq_ok.2 ⟨loc, hv, by rw [hentry]⟩
      refine ⟨by simp [hcreate'], v.put loc .dir, by simp [FileTree.createLast, hcreate'], ?_⟩
      exact h.put hsorted (put_sorted h.right hv (by simp [hentry])) hne hT
    | some e =>
      -- what the second tree has there is what the end has, a directory
      have hnew : (u.put loc .dir).isDirAt loc = true := by
        rw [isDirAt_iff, entryAt_put hne, if_pos rfl]
      have hdir := isDirAt_iff.1 (h.final.isDirAt_of_entryAt hentry (hT.isDirAt hnew))
      have hisDir : v.isDir p = true := by
        have hlast := follow_true_of_false hv fun target => by simp [hdir]
        have hat := isDirAt_iff.2 hdir
        exact isDir_iff.2 ⟨loc, follow_of_withoutSeparators hlast hat, hat⟩
      obtain ⟨hne', hkeep⟩ := hstays hisDir
      exact ⟨hne', v, hkeep, h.put_left hsorted hnone hdir⟩
  · obtain ⟨rfl, hfail⟩ := Prod.mk.inj hu
    have hdir : u.isDir p = true := by
      split at hfail
      · assumption
      · simp at hfail
    obtain ⟨hne, hkeep⟩ := hstays (h.isDir hdir)
    exact ⟨hne, v, hkeep, h⟩

/-- Where the first tree lacks something on the way of a path that it will lead to in the end, the
second does too, or has what the path leads to. -/
theorem follow_or_notFound (h : Replay T top u v) (hu : u.follow last p = .error .notFound)
    (hp : p.text ≠ "") (hloc : T.follow last p = .ok loc) (he : T.entryAt loc = some e) :
    v.follow last p = .ok loc ∨ v.follow last p = .error .notFound := by
  obtain ⟨-, hleads⟩ := follow_eq_ok_iff.1 hloc
  rw [h.final.current] at hleads
  have hdir : u.isDirAt (if p.isAbsolute then [] else u.current) = true := by
    obtain ⟨seg, rest, hsegs⟩ := List.exists_cons_of_ne_nil (Path.segments_ne_nil p)
    refine Decidable.byContradiction fun hdir => ?_
    rw [FileTree.follow, if_neg hp, hsegs, followFrom_cons, if_pos (by simpa using hdir)] at hu
    simp at hu
  rw [← h.within.current] at hdir
  have hlinks : ∀ loc dest, T.entryAt loc = some (.link dest) →
      v.entryAt loc = some (.link dest) := fun loc dest hl => h.within.link (h.link loc dest hl)
  rw [FileTree.follow, if_neg hp]
  exact followFrom_or_notFound h.final h.right.toWellFormed hlinks hleads he
    (h.within.isDirAt hdir)

end Replay

theorem follow_eq_notFound_of_createDir (h : u.createDir p = .error .notFound) :
    u.follow false (withoutSeparators p) = .error .notFound := by
  unfold FileTree.createDir at h
  cases hfollow : u.follow false (withoutSeparators p) with
  | error cause => simpa [hfollow, bind, Except.bind] using h
  | ok loc =>
    simp only [hfollow, bind, Except.bind] at h
    split at h <;> simp at h

/-- Where a path can be followed its parents are directories, so that none is created. -/
theorem createDirs_parent_of_follow (hp : p.parent = some q)
    (h : v.follow false (withoutSeparators p) = .ok loc) : v.createDirs q n = (v, none) := by
  by_cases htrivial : q.text = "" ∨ q.text = "/"
  · exact createDirs_of_parent_eq_none (Path.parent_eq_none htrivial) n
  rw [not_or] at htrivial
  obtain ⟨more, hmore, hsegs⟩ := exists_segments_of_parent hp htrivial.1 htrivial.2
  obtain ⟨-, hleads⟩ := follow_eq_ok_iff.1 h
  have habs : (withoutSeparators p).isAbsolute = q.isAbsolute := by
    rw [(withoutSeparators_of_parent hp).2]
    rcases Path.parent_cases hp with hq | hq | ⟨-, habs⟩
    · exact absurd hq htrivial.1
    · exact absurd hq htrivial.2
    · exact habs.symm
  rw [hsegs, habs] at hleads
  obtain ⟨m, hm, hmdir⟩ := hleads.exists_prefix hmore
  exact createDirs_of_isDir (isDir_iff.2 ⟨m, follow_eq_ok_iff.2 ⟨htrivial.1, hm⟩, hmdir⟩) n

namespace Replay

/-- Directories that could be created for a path in the first tree can be created in the second. -/
theorem createDirs (h : Replay T top u v) (hu : u.createDirs p n = (u', none))
    (hT : Within u' T) : ∃ v', v.createDirs p n = (v', none) ∧ Replay T top u' v' := by
  induction n generalizing p u u' v with
  | zero =>
    obtain rfl := (Prod.mk.inj hu).1
    exact ⟨v, rfl, h⟩
  | succ n ih =>
    cases hp : p.parent with
    | none =>
      rw [createDirs_of_parent_eq_none hp] at hu ⊢
      obtain rfl := (Prod.mk.inj hu).1
      exact ⟨v, rfl, h⟩
    | some q =>
      by_cases hmissing : u.createDir p = .error .notFound
      case neg =>
        rw [createDirs_of_ne hp hmissing] at hu
        obtain ⟨hne, hlast⟩ := h.createLast hp hu hT
        rwa [createDirs_of_ne hp hne]
      rw [createDirs_of_notFound hp hmissing] at hu
      split at hu
      · simp at hu
      rename_i u₁ hparents
      have hs₁ : u₁.Sorted := by
        have hgrows : Grows u (fun _ => True) (u.createDirs q n).1 := createDirs_grows h.left n
        rw [hparents] at hgrows
        exact hgrows.sorted
      have hT₁ : Within u₁ T := by
        have hgrows : Grows u₁ (fun _ => True) (u₁.createLast p).1 := createLast_grows hs₁
        rw [hu] at hgrows
        exact hgrows.within.trans hT
      obtain ⟨v₁, hv₁, h₁⟩ := ih h hparents hT₁
      obtain ⟨hne₁, hlast⟩ := h₁.createLast hp hu hT
      -- in the second tree the parents may be there, and then nothing is done for them
      obtain ⟨htext, -⟩ := withoutSeparators_of_parent hp
      obtain ⟨loc, e, hloc, he⟩ := exists_follow_of_createLast hs₁ hp hu
      have hTloc := follow_within_of_entryAt hT hloc he
      obtain ⟨f, hf, -⟩ := hT.entry _ _ he
      rcases h.follow_or_notFound (follow_eq_notFound_of_createDir hmissing) htext hTloc hf with
        hvloc | hvmissing
      · have hvq : v.createDirs q n = (v, none) := createDirs_parent_of_follow hp hvloc
        obtain rfl := (Prod.mk.inj (hvq.symm.trans hv₁)).1
        rwa [createDirs_of_ne hp hne₁]
      · have hvcreate : v.createDir p = .error .notFound := by
          simp [FileTree.createDir, hvmissing, bind, Except.bind]
        rwa [createDirs_of_notFound hp hvcreate, hv₁]

end Replay

theorem read_eq_of_stat {t t' : FileTree} (h : t.stat p = t'.stat p) : t.read p = t'.read p := by
  rw [read, read, h]

theorem write_of_follow (hsep : endsInSeparator p = false) (hloc : u.follow true p = .ok loc)
    (hdir : u.entryAt loc ≠ some .dir) : u.write p bytes = .ok (u.put loc (.file bytes)) := by
  rw [write, if_neg (by simp [hsep]), hloc]
  change u.writeAt loc bytes = _
  unfold writeAt
  split
  · exact absurd ‹_› hdir
  · rfl

theorem endsInSeparator_of_write (h : u.write p bytes = .ok u') : endsInSeparator p = false := by
  cases hsep : endsInSeparator p with
  | false => rfl
  | true =>
    unfold write at h
    rw [if_pos hsep] at h
    dsimp only at h
    split at h
    · cases hrest : u.follow false (withoutSeparators p) <;>
        simp [hrest, bind, Except.bind] at h
    · simp at h

/-- What a copy leaves: the bytes of its source, unless it is a copy onto itself. -/
theorem copyFile_eq_ok_iff : u.copyFile p q = .ok u' ↔
    ∃ source e bytes loc, u.stat p = .ok (source, e) ∧ u.read p = .ok bytes ∧
      endsInSeparator q = false ∧ u.follow true q = .ok loc ∧ u.entryAt loc ≠ some .dir ∧
      u' = u.put loc (.file (if loc = source then .empty else bytes)) := by
  unfold copyFile
  constructor
  · intro h
    obtain ⟨⟨source, e⟩, hstat, h⟩ := bind_eq_ok.1 h
    obtain ⟨bytes, hread, h⟩ := bind_eq_ok.1 h
    obtain ⟨u₁, hwrite, h⟩ := bind_eq_ok.1 h
    obtain ⟨written, hwritten, h⟩ := bind_eq_ok.1 h
    obtain ⟨loc, hloc, hdir, rfl⟩ := write_eq_ok hwrite
    obtain rfl := eq_of_eq_ok hwritten hloc
    refine ⟨source, e, bytes, written, hstat, hread, endsInSeparator_of_write hwrite, hloc, hdir, ?_⟩
    split at h
    · rename_i heq
      rw [if_pos heq, ← Except.ok.inj h, heq]
    · rename_i hne
      rw [if_neg hne, ← Except.ok.inj h]
  · rintro ⟨source, e, bytes, loc, hstat, hread, hsep, hloc, hdir, rfl⟩
    refine bind_eq_ok.2 ⟨(source, e), hstat, bind_eq_ok.2 ⟨bytes, hread, ?_⟩⟩
    refine bind_eq_ok.2 ⟨_, write_of_follow hsep hloc hdir, ?_⟩
    refine bind_eq_ok.2 ⟨loc, hloc, ?_⟩
    split
    · rename_i heq
      rw [heq]
    · rfl

namespace Replay

/-- What stands outside is the same in both trees. -/
theorem stat (h : Replay T top u v) (hu : u.stat p = .ok (loc, e)) (hloc : ¬top <+: loc) :
    v.stat p = .ok (loc, e) := by
  obtain ⟨hfollow, he⟩ := stat_eq_ok_iff.1 hu
  exact stat_eq_ok_iff.2 ⟨h.follow hfollow, (h.outside loc hloc).trans he⟩

theorem read (h : Replay T top u v) (hu : u.read p = .ok bytes)
    (hout : ∀ loc, T.follow true p = .ok loc → ¬top <+: loc) : v.read p = .ok bytes := by
  obtain ⟨⟨loc, e⟩, hstat, -⟩ := bind_eq_ok.1 hu
  obtain ⟨hloc, he⟩ := stat_eq_ok_iff.1 hstat
  have hT := follow_within_of_entryAt (h.within.trans h.final) hloc he
  rw [← read_eq_of_stat (hstat.trans (h.stat hstat (hout loc hT)).symm)]
  exact hu

/-- A walk that starts apart from the location finds the same in both trees. -/
theorem walk {found : List Found} (h : Replay T top u v) (hu : u.walk p = .ok found)
    (hout : ∀ loc, T.follow true p = .ok loc → ¬top <+: loc ∧ ¬loc <+: top) :
    v.walk p = .ok found := by
  obtain ⟨root, e, hroot, he⟩ := exists_root_of_walk hu
  have hT := follow_within_of_entryAt (h.within.trans h.final) hroot he
  obtain ⟨hbelow, habove⟩ := hout root hT
  have hsame : v.below root = u.below root := by
    refine below_eq_of_agree h.right h.left fun l hle _ => h.outside l fun htop => ?_
    rcases List.prefix_or_prefix_of_prefix htop hle with h | h
    · exact hbelow h
    · exact habove h
  rw [walk_of_follow (h.follow hroot) ((h.outside root hbelow).trans he), hsame]
  exact (walk_of_follow hroot he).symm.trans hu

/-- A file that is written in the first tree, and stands so in the end, is written in the second. -/
theorem putFile (h : Replay T top u v) (hloc : u.follow true p = .ok loc)
    (hdir : u.entryAt loc ≠ some .dir) (hT : Within (u.put loc (.file bytes)) T) :
    v.follow true p = .ok loc ∧ v.entryAt loc ≠ some .dir ∧
      Replay T top (u.put loc (.file bytes)) (v.put loc (.file bytes)) := by
  have hne : loc ≠ [] := by
    rintro rfl
    exact hdir rfl
  have hv := h.follow hloc
  have hvdir : v.entryAt loc ≠ some .dir := by
    intro hentry
    have hnew : (u.put loc (.file bytes)).entryAt loc = some (.file bytes) := by
      rw [entryAt_put hne, if_pos rfl]
    have hTdir := h.final.isDirAt (isDirAt_iff.2 hentry)
    simp [isDirAt_iff.1 (hT.isDirAt_of_entryAt hnew hTdir)] at hnew
  exact ⟨hv, hvdir, h.put (put_sorted h.left hloc hdir) (put_sorted h.right hv hvdir) hne hT⟩

theorem write (h : Replay T top u v) (hu : u.write p bytes = .ok u') (hT : Within u' T) :
    ∃ v', v.write p bytes = .ok v' ∧ Replay T top u' v' := by
  obtain ⟨loc, hloc, hdir, rfl⟩ := write_eq_ok hu
  obtain ⟨hv, hvdir, hnext⟩ := h.putFile hloc hdir hT
  exact ⟨_, write_of_follow (endsInSeparator_of_write hu) hv hvdir, hnext⟩

theorem copyFile (h : Replay T top u v) (hu : u.copyFile p q = .ok u') (hT : Within u' T)
    (hout : ∀ loc, T.follow true p = .ok loc → ¬top <+: loc) :
    ∃ v', v.copyFile p q = .ok v' ∧ Replay T top u' v' := by
  obtain ⟨source, e, bytes, loc, hstat, hread, hsep, hloc, hdir, rfl⟩ :=
    copyFile_eq_ok_iff.1 hu
  obtain ⟨hv, hvdir, hnext⟩ := h.putFile hloc hdir hT
  obtain ⟨hsource, he⟩ := stat_eq_ok_iff.1 hstat
  have hsourceout := hout source (follow_within_of_entryAt (h.within.trans h.final) hsource he)
  exact ⟨_, copyFile_eq_ok_iff.2 ⟨source, e, bytes, loc, h.stat hstat hsourceout,
    h.read hread hout, hsep, hv, hvdir, rfl⟩, hnext⟩

end Replay

end DocSite.FileTree
