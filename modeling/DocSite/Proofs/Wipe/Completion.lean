import DocSite.Proofs.FileTree.Creation
import DocSite.Proofs.FileTree.Emptying
import DocSite.Proofs.Wipe.Success

namespace DocSite

open FileTree (Loses Within IsTurn Attempt Rooted StrictlyBelow namesOf)
open DocSite.Path (GoesDown)

variable {t t' u u₁ u₂ : FileTree} {loc top : Location} {target : Path} {c : Config}
variable {r : Resource} {name : String} {x : FileTree.Refusals}

namespace FileTree

/-- The second list of entries is the first without some of them. -/
def Thins (t t' : FileTree) : Prop := t'.entries.Sublist t.entries

theorem attempt_thins {result : Except FileError FileTree}
    (h : ∀ t', result = .ok t' → Thins t t') : Thins t (t.attempt result).1 := by
  cases result with
  | ok t' => exact h t' rfl
  | error cause => exact List.Sublist.refl _

theorem tryRemoveFile_thins {p : Path} : Thins t (t.tryRemoveFile x p).1 := by
  unfold tryRemoveFile
  split
  · exact List.Sublist.refl _
  · refine attempt_thins fun t' h => ?_
    obtain ⟨loc, e, -, -, -, rfl⟩ := removeFile_eq_ok h
    exact List.filter_sublist

theorem tryRemoveDir_thins {p : Path} : Thins t (t.tryRemoveDir x p).1 := by
  unfold tryRemoveDir
  split
  · exact List.Sublist.refl _
  · refine attempt_thins fun t' h => ?_
    obtain ⟨loc, -, -, -, -, rfl⟩ := removeDir_eq_ok h
    exact List.filter_sublist

theorem andThen_thins {a : Attempt} {next : FileTree → Attempt} (h : Thins t a.1)
    (hnext : ∀ t, Thins t (next t).1) : Thins t (a.andThen next).1 := by
  unfold Attempt.andThen
  split
  · exact (hnext a.1).trans h
  · exact h

theorem attemptAll_thins {α : Type} {step : FileTree → α → Attempt} {items : List α}
    (h : ∀ t a, Thins t (step t a).1) : Thins t (t.attemptAll step items).1 := by
  induction items generalizing t with
  | nil => exact List.Sublist.refl _
  | cons a items ih =>
    rw [attemptAll_cons]
    exact andThen_thins (h t a) fun _ => ih

theorem removeAll_thins {p : Path} : Thins t (t.removeAll p x).1 := by
  unfold removeAll
  split
  · exact List.Sublist.refl _
  split
  · exact List.Sublist.refl _
  · refine andThen_thins (attemptAll_thins fun t f => ?_) fun _ => tryRemoveDir_thins
    unfold removeFound
    split
    · exact tryRemoveDir_thins
    · exact tryRemoveFile_thins

end FileTree

open FileTree in
/-- A wipe leaves what it does not take in the order in which it was. -/
theorem wipe_thins : Thins t (wipe target c t x).1 := by
  unfold wipe
  split
  · exact List.Sublist.refl _
  refine andThen_thins (andThen_thins (attemptAll_thins fun t r => ?_) fun t =>
    attemptAll_thins fun t name => ?_) fun t => ?_
  · unfold Wipe.resource
    dsimp only
    split
    · exact removeAll_thins
    · exact List.Sublist.refl _
  · unfold Wipe.commonPage
    dsimp only
    split
    · exact tryRemoveFile_thins
    · exact List.Sublist.refl _
  · unfold Wipe.namedPages
    split
    · exact List.Sublist.refl _
    split
    · exact List.Sublist.refl _
    · exact attemptAll_thins fun _ _ => tryRemoveFile_thins

theorem wipe_sorted (hs : t.Sorted) : (wipe target c t x).1.Sorted :=
  ⟨(Wipe.wipe_loses hs.toWellFormed x target c).wellFormed, hs.sorted.sublist wipe_thins⟩

namespace Wipe

/-- The removal of a copy succeeds unless there is one and its path ends in `.`. -/
theorem resource_rooted (h : Rooted t target top) (hw : t.WellFormed)
    (hdest : Config.leavesOutput r.destination = false) :
    Loses t (StrictlyBelow top) (resource {} target t r).1 ∧
      ((resource {} target t r).2 = true ↔ (t.isDir (target.join ⟨r.destination⟩) = true →
        FileTree.endsInDot ⟨r.destination⟩ = false)) := by
  obtain ⟨hne, hrel, hup⟩ := Config.leavesOutput_eq_false_iff.1 hdest
  unfold resource
  dsimp only
  split
  · rename_i hisDir
    obtain ⟨loc, hloc, hdir⟩ := FileTree.isDir_iff.1 hisDir
    obtain rfl := h.eq_of_follow hrel hup hloc
    obtain ⟨hloses, hok⟩ := h.removeAll hw hrel hne hup hdir
    exact ⟨hloses, hok.trans (by simp [hisDir])⟩
  · rename_i hisDir
    exact ⟨.refl hw, by simp [hisDir]⟩

theorem commonPage_succeeds : (commonPage {} target t name).2 = true := by
  unfold commonPage
  dsimp only
  split
  · rename_i hfile
    obtain ⟨loc, bytes, hloc, he⟩ := FileTree.isFile_iff.1 hfile
    obtain ⟨l, e, hfollow, hle⟩ := FileTree.exists_follow_false hloc he
    have hdir : e ≠ .dir := by
      -- a directory would be what the name leads to through its last link as well
      rintro rfl
      have hlast := FileTree.follow_true_of_false hfollow fun target => by simp [hle]
      obtain rfl := eq_of_eq_ok hlast hloc
      simp [he] at hle
    rw [FileTree.tryRemoveFile, if_neg (by simp), FileTree.removeFile_of_entryAt hfollow hle hdir]
    rfl
  · rfl

theorem commonPage_rooted (h : Rooted t target top) (hw : t.WellFormed) (hname : GoesDown ⟨name⟩) :
    Loses t (StrictlyBelow top) (commonPage {} target t name).1 := by
  refine (commonPage_loses hw {} target name).mono fun loc hpage => ⟨?_, ?_⟩
  · rw [h.eq_of_follow hname.1 hname.2 hpage.2]
    exact List.prefix_append _ _
  · rintro rfl
    obtain ⟨e, he, hdir⟩ := hpage.exists_entry
    rw [FileTree.isDirAt_iff.1 h.isDir] at he
    exact hdir (Option.some.inj he).symm

theorem namedPages_rooted (h : Rooted t target top) (hw : t.WellFormed) :
    Loses t (StrictlyBelow top) (namedPages x target c t).1 := by
  refine (namedPages_loses hw x target c).mono ?_
  rintro loc ⟨l, names, bytes, hl, hne, rfl, -⟩
  obtain rfl := eq_of_eq_ok hl h.follow
  exact ⟨List.prefix_append _ _, by simpa using hne⟩

/-- The files that a pattern could have named can be removed one after the other. -/
theorem namedPages_succeeds (h : Rooted t target top) (hw : t.WellFormed) :
    (namedPages {} target c t).2 = true := by
  obtain ⟨found, hwalk⟩ : ∃ found, t.walk target = .ok found :=
    ⟨_, FileTree.walk_of_follow h.follow (FileTree.isDirAt_iff.1 h.isDir)⟩
  unfold namedPages
  rw [if_neg (by simp), hwalk]
  dsimp only
  rw [FileTree.attemptAll_eq_true_iff]
  rintro f s ⟨before, after, hitems, hbefore⟩
  have hmine : ∀ g ∈ found.filter (isNamed c), t.FoundIn target top g ∧
      ∃ bytes, g.entry = .file bytes := fun g hg => by
    obtain ⟨hg, hnamed⟩ := List.mem_filter.1 hg
    exact ⟨(FileTree.mem_walk_iff hw hwalk h.follow).1 hg, (isNamed_iff.1 hnamed).1⟩
  -- what was removed before is listed at other places
  have hlost : Loses t (fun loc => ∃ g ∈ before, loc = top ++ g.names) s := by
    have hall : Loses t (fun loc => ∃ g ∈ before, loc = top ++ g.names)
        (t.attemptAll (fun t f => t.tryRemoveFile {} f.path) before).1 := by
      refine FileTree.attemptAll_loses (.refl hw) fun t' ht' g hg => ?_
      obtain ⟨hg', -⟩ := hmine g (hitems ▸ List.mem_append_left _ hg)
      refine (FileTree.tryRemoveFile_loses ht'.wellFormed {}).mono fun loc ⟨hloc, e, he, _⟩ => ?_
      exact ⟨g, hg, eq_of_eq_ok (ht'.follow hloc he) (hg'.follow_path hw false (by simp))⟩
    rwa [hbefore] at hall
  have hdistinct := (FileTree.pairwise_names_of_walk hw hwalk).filter (isNamed c)
  obtain ⟨hf, bytes, hbytes⟩ := hmine f (hitems ▸ List.mem_append_right _ (.head _))
  rw [hitems] at hdistinct
  have hkept : s.entryAt (top ++ f.names) = some (.file bytes) := by
    rcases hlost.entry (top ++ f.names) with heq | ⟨-, g, hg, heq⟩
    · rw [heq, hf.entry_eq, hbytes]
    · have hne := (List.pairwise_append.1 hdistinct).2.2 g hg f (.head _)
      exact absurd (List.append_cancel_left heq).symm hne
  have hrooted : Rooted s target top := by
    refine h.loses (hlost.mono ?_)
    rintro loc ⟨g, hg, rfl⟩
    obtain ⟨hg', -⟩ := hmine g (hitems ▸ List.mem_append_left _ hg)
    exact ⟨List.prefix_append _ _, by simpa using hg'.names_ne_nil⟩
  have hfs : s.FoundIn target top f := ⟨hrooted.follow, hf.names_ne_nil, hf.path_eq, hbytes ▸ hkept⟩
  have hfollow := hfs.follow_path hlost.wellFormed false (by simp)
  rw [FileTree.tryRemoveFile, if_neg (by simp),
    FileTree.removeFile_of_entryAt hfollow hkept (by simp)]
  rfl

theorem resources_rooted (h : Rooted t target top) (hw : t.WellFormed) (hc : c.Valid) :
    Loses t (StrictlyBelow top) (resources {} target c t).1 ∧
      ((resources {} target c t).2 = true ↔ ∀ r s, ResourceTurn target c t r s →
        s.isDir (target.join ⟨r.destination⟩) = true →
          FileTree.endsInDot ⟨r.destination⟩ = false) := by
  have hstep : ∀ t', Loses t (StrictlyBelow top) t' → ∀ r ∈ c.resources,
      Loses t' (StrictlyBelow top) (resource {} target t' r).1 := fun t' ht' r hr =>
    (resource_rooted (h.loses ht') ht'.wellFormed (hc.destination r hr)).1
  refine ⟨FileTree.attemptAll_loses (.refl hw) hstep, ?_⟩
  refine FileTree.attemptAll_eq_true_iff.trans (forall_congr' fun r => forall_congr' fun s => ?_)
  refine forall_congr' fun hs => ?_
  have hts : Loses t (StrictlyBelow top) s := hs.loses hw hstep
  exact (resource_rooted (h.loses hts) hts.wellFormed (hc.destination r hs.mem)).2

theorem commonPages_rooted (h : Rooted t target top) (hw : t.WellFormed)
    (hnames : ∀ name ∈ c.templates.common.keys, GoesDown ⟨name⟩) :
    Loses t (StrictlyBelow top) (commonPages {} target c t).1 :=
  FileTree.attemptAll_loses (.refl hw) fun _ ht' name hname =>
    commonPage_rooted (h.loses ht') ht'.wellFormed (hnames name hname)

/-- When a wipe succeeds; and whether or not it does, it takes nothing but what is below. -/
theorem wipe_rooted (h : Rooted t target top) (hw : t.WellFormed) (hc : c.Valid)
    (hnames : ∀ name ∈ c.templates.common.keys, GoesDown ⟨name⟩) :
    Loses t (StrictlyBelow top) (wipe target c t).1 ∧
      ((wipe target c t).2 = true ↔ ∀ r s, ResourceTurn target c t r s →
        s.isDir (target.join ⟨r.destination⟩) = true →
          FileTree.endsInDot ⟨r.destination⟩ = false) := by
  obtain ⟨hfirst, hok⟩ := resources_rooted h hw hc
  rw [wipe_of_hasPath (hasPath_of_isDirAt h.follow h.isDir), ← hok]
  have hsecond : Loses t (StrictlyBelow top)
      ((resources {} target c t).andThen (commonPages {} target c)).1 :=
    FileTree.andThen_loses hfirst
      (commonPages_rooted (h.loses hfirst) hfirst.wellFormed hnames)
  refine ⟨FileTree.andThen_loses hsecond
    (namedPages_rooted (h.loses hsecond) hsecond.wellFormed), ?_⟩
  -- the phases after the first always succeed
  have hcommon : ∀ u, (commonPages {} target c u).2 = true := fun u =>
    FileTree.attemptAll_eq_true_iff.2 fun _ _ _ => commonPage_succeeds
  have hnamed := namedPages_succeeds (c := c) (h.loses hsecond) hsecond.wellFormed
  constructor
  · intro hall
    exact (FileTree.andThen_eq_of_true (FileTree.andThen_eq_of_true hall).1).1
  · intro hresources
    have heq : (resources {} target c t).andThen (commonPages {} target c) =
        commonPages {} target c (resources {} target c t).1 := if_pos hresources
    rw [heq] at hnamed ⊢
    rw [Attempt.andThen, if_pos (hcommon _)]
    exact hnamed

/-- Nothing is there that a wipe would take. -/
structure Bare (target : Path) (top : Location) (c : Config) (t : FileTree) : Prop where
  copy : ∀ r ∈ c.resources, namesOf (Path.segments ⟨r.destination⟩) ≠ [] →
    t.isDirAt (top ++ namesOf (Path.segments ⟨r.destination⟩)) = false
  commonPage : ∀ name ∈ c.templates.common.keys, t.isFile (target.join ⟨name⟩) = false
  namedPage : ∀ loc, ¬NamedPageAt target c t loc

/-- A wipe that succeeds leaves nothing that another would take. -/
theorem Phases.bare (h : Phases target top c t u₁ u₂ t') (hc : c.Valid)
    (htop : t.follow true target = .ok top) (hlinks : ¬t.LinkBelow top)
    (hnames : ∀ name ∈ c.templates.common.keys, Config.leavesOutput name = false) :
    Bare target top c t' := by
  have hfirst := h.first.trans (h.second.trans h.third)
  constructor
  · intro r hr hne
    rw [Bool.eq_false_iff]
    intro hdir
    obtain ⟨-, hrel, hup⟩ := Config.leavesOutput_eq_false_iff.1 (hc.destination r hr)
    have hold := hfirst.isDirAt hdir
    have hfollow : t.follow true (target.join ⟨r.destination⟩) =
        .ok (top ++ namesOf (Path.segments ⟨r.destination⟩)) :=
      FileTree.follow_join htop (h.wellFormed.isDirAt_left hold) hrel
        fun links => FileTree.leads_of_isDirAt h.wellFormed hup hold links
    have hgone := h.copy_gone hc htop hlinks hr ⟨_, hfollow, hold, List.prefix_refl _⟩
      (by simp [hne])
    rw [FileTree.isDirAt_iff, (h.second.trans h.third).entryAt_eq_none hgone] at hdir
    contradiction
  · intro name hname
    rw [Bool.eq_false_iff]
    intro hfile
    obtain ⟨loc, bytes, hloc, he⟩ := FileTree.isFile_iff.1 hfile
    obtain ⟨s, hs, hpage⟩ := h.exists_turn_of_checked htop hlinks hname (hnames name hname)
      (hfirst.follow hloc he) he
    rw [h.commonPage_gone hs hpage] at he
    contradiction
  · intro loc hpage
    have hgone := h.namedPage_gone (hpage.of_loses h.third)
    obtain ⟨_, _, bytes, -, -, -, he, -⟩ := hpage
    rw [hgone] at he
    contradiction

/-- After a wipe that succeeds the target is still there: when the last files are listed it must be,
and what is removed then are files. -/
theorem Phases.target_left (h : Phases target top c t u₁ u₂ t') :
    t'.follow true target = .ok top ∧ t'.isDirAt top = true := by
  have hkept : ∀ loc e, u₂.entryAt loc = some e → (∀ bytes, e ≠ .file bytes) →
      t'.entryAt loc = some e := by
    intro loc e he hfile
    rcases h.named_loses.entry loc with heq | ⟨-, _, _, bytes, -, -, -, hbytes, -⟩
    · rw [heq, he]
    · rw [he] at hbytes
      exact absurd (Option.some.inj hbytes) (hfile bytes)
  obtain ⟨htext, hleads⟩ := FileTree.follow_eq_ok_iff.1 h.follow
  rw [← h.third.current] at hleads
  refine ⟨FileTree.follow_eq_ok_iff.2 ⟨htext, hleads.of_lost_files h.isDirAt hkept⟩, ?_⟩
  exact FileTree.isDirAt_iff.2 (hkept _ _ (FileTree.isDirAt_iff.1 h.isDirAt) (by simp))

/-- An empty target has nothing that a wipe would take. -/
theorem bare_of_below_eq_nil (htop : t.follow true target = .ok top) (hdir : t.isDirAt top = true)
    (hempty : t.below top = []) (hnames : ∀ name ∈ c.templates.common.keys, GoesDown ⟨name⟩) :
    Bare target top c t := by
  have hnone : ∀ names, names ≠ [] → t.entryAt (top ++ names) = none := fun names hne =>
    FileTree.entryAt_eq_none_of_below_eq_nil hempty (List.prefix_append _ _) (by simpa using hne)
  have hlinks : ¬t.LinkBelow top := by
    rintro ⟨loc, dest, hle, hne, hlink⟩
    simp [FileTree.entryAt_eq_none_of_below_eq_nil hempty hle hne] at hlink
  constructor
  · intro r _ hne
    rw [Bool.eq_false_iff, ne_eq, FileTree.isDirAt_iff, hnone _ hne]
    simp
  · intro name hname
    rw [Bool.eq_false_iff]
    intro hfile
    obtain ⟨loc, bytes, hloc, he⟩ := FileTree.isFile_iff.1 hfile
    obtain ⟨hrel, hup⟩ := hnames name hname
    obtain rfl := FileTree.eq_append_namesOf_of_follow_join htop hrel hup hlinks hloc
    by_cases hne : namesOf (Path.segments ⟨name⟩) = []
    · rw [hne, List.append_nil, FileTree.isDirAt_iff.1 hdir] at he
      simp at he
    · simp [hnone _ hne] at he
  · rintro loc ⟨l, names, bytes, hl, hne, rfl, he, -⟩
    obtain rfl := eq_of_eq_ok hl htop
    simp [hnone _ hne] at he

theorem Bare.not_common (hu : Bare target top c u) (hw : u.WellFormed)
    (htop : u.follow true target = .ok top) (hdir : u.isDirAt top = true) (hgrow : Within u t)
    (h : Rooted t target top) (hname : name ∈ c.templates.common.keys)
    (hdown : GoesDown ⟨name⟩) (hpage : CommonPageAt target t name loc) : u.entryAt loc = none := by
  cases he : u.entryAt loc with
  | none => rfl
  | some e =>
    exfalso
    obtain ⟨l, bytes, hl, hle⟩ := FileTree.isFile_iff.1 hpage.1
    -- below the target there is no link, so the name leads to the file at `loc`
    obtain rfl : l = loc :=
      (h.eq_of_follow hdown.1 hdown.2 hl).trans (h.eq_of_follow hdown.1 hdown.2 hpage.2).symm
    obtain ⟨old, hold⟩ := hgrow.exists_file he hle
    obtain ⟨links, hleads⟩ := FileTree.leads_of_follow_join h.follow hdown.1 hl
    have hfollow : u.follow true (target.join ⟨name⟩) = .ok l :=
      FileTree.follow_join htop hdir hdown.1 fun links =>
        hleads.of_within hdown.2 (List.prefix_refl _) h.no_links hw hgrow he true links
    have hfile := FileTree.isFile_iff.2 ⟨l, old, hfollow, hold⟩
    rw [hu.commonPage name hname] at hfile
    contradiction

theorem Bare.not_named (hu : Bare target top c u) (htop : u.follow true target = .ok top)
    (hgrow : Within u t) (h : t.follow true target = .ok top)
    (hpage : NamedPageAt target c t loc) : u.entryAt loc = none := by
  cases he : u.entryAt loc with
  | none => rfl
  | some e =>
    exfalso
    obtain ⟨l, names, bytes, hl, hne, rfl, hfile, hpattern⟩ := hpage
    obtain rfl := eq_of_eq_ok hl h
    obtain ⟨old, hold⟩ := hgrow.exists_file he hfile
    exact hu.namedPage _ ⟨l, names, old, htop, hne, rfl, hold, hpattern⟩

theorem Bare.not_copied (hu : Bare target top c u) (hw : u.WellFormed) (hgrow : Within u t)
    (h : Rooted t target top) (hc : c.Valid) (hr : r ∈ c.resources)
    (hnames : namesOf (Path.segments ⟨r.destination⟩) ≠ [])
    (hin : t.InDir (target.join ⟨r.destination⟩) loc) : u.entryAt loc = none := by
  cases he : u.entryAt loc with
  | none => rfl
  | some e =>
    exfalso
    obtain ⟨-, hrel, hup⟩ := Config.leavesOutput_eq_false_iff.1 (hc.destination r hr)
    obtain ⟨root, hroot, hdir, hle⟩ := hin
    obtain rfl := h.eq_of_follow hrel hup hroot
    have hold : u.isDirAt (top ++ namesOf (Path.segments ⟨r.destination⟩)) = true := by
      by_cases heq : top ++ namesOf (Path.segments ⟨r.destination⟩) = loc
      · exact hgrow.isDirAt_of_entryAt (heq ▸ he) hdir
      · exact hw.isDirAt_of_prefix he hle heq
    rw [hu.copy r hr hnames] at hold
    contradiction

/-- A wipe that succeeds on a tree that has grown out of a bare one takes only what is new. -/
theorem Bare.kept (hu : Bare target top c u) (hw : u.WellFormed)
    (htop : u.follow true target = .ok top) (hdir : u.isDirAt top = true) (hgrow : Within u t)
    (h : Rooted t target top) (ht : t.WellFormed) (hc : c.Valid)
    (hnames : ∀ name ∈ c.templates.common.keys, GoesDown ⟨name⟩)
    (hok : (wipe target c t).2 = true) (loc : Location) :
    (wipe target c t).1.entryAt loc = t.entryAt loc ∨ u.entryAt loc = none := by
  rcases (wipe_loses ht {} target c).entry loc with heq | ⟨-, htaken⟩
  · exact .inl heq
  right
  cases htaken with
  | commonPage name hname hpage =>
    exact hu.not_common hw htop hdir hgrow h hname (hnames name hname) hpage
  | namedPage hpage => exact hu.not_named htop hgrow h.follow hpage
  | resource r hr hin =>
    refine hu.not_copied hw hgrow h hc hr (fun hnil => ?_) hin
    -- a destination without names would have stopped the wipe
    obtain ⟨hne, hrel, hup⟩ := Config.leavesOutput_eq_false_iff.1 (hc.destination r hr)
    have hturns := (wipe_rooted h ht hc hnames).2.1 hok
    obtain ⟨hfirst, hresources⟩ := resources_rooted h ht hc
    obtain ⟨s, hs, -⟩ := FileTree.exists_turn_of_true (hresources.2 hturns) hr
    have hts : Loses t (StrictlyBelow top) s := hs.loses ht fun t' ht' r hr =>
      (resource_rooted (h.loses ht') ht'.wellFormed (hc.destination r hr)).1
    have hs' := h.loses hts
    have hroot : s.isDirAt (top ++ namesOf (Path.segments ⟨r.destination⟩)) = true := by
      rw [hnil, List.append_nil]
      exact hs'.isDir
    have hdot := hturns r s hs
      (FileTree.isDir_iff.2 ⟨_, hs'.follow_join hts.wellFormed hrel hup hroot, hroot⟩)
    rw [FileTree.endsInDot_of_namesOf_eq_nil hrel hne hnil] at hdot
    contradiction

end Wipe
end DocSite
