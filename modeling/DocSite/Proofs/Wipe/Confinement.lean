import DocSite.Proofs.Config
import DocSite.Proofs.FileTree.Success
import DocSite.Proofs.Wipe.Frame

namespace DocSite

open FileTree (Loses Shrinks InDir IsTurn Refusals Attempt LinkBelow)

variable {t t' s u : FileTree} {loc top root : Location} {x : Refusals} {e : Entry}
variable {target : Path} {c : Config} {r : Resource} {name : String}

namespace Wipe

theorem resource_upTo (hw : t.WellFormed) (r : Resource) :
    Attempt.UpTo (resource x target t r) (resource {} target t r) := by
  unfold resource
  dsimp only
  split
  · exact FileTree.removeAll_upTo hw
  · exact .refl _

theorem commonPage_upTo (hw : t.WellFormed) (name : String) :
    Attempt.UpTo (commonPage x target t name) (commonPage {} target t name) := by
  unfold commonPage
  dsimp only
  split
  · exact FileTree.tryRemoveFile_upTo hw
  · exact .refl _

theorem resources_upTo (hw : t.WellFormed) :
    Attempt.UpTo (resources x target c t) (resources {} target c t) :=
  FileTree.attemptAll_upTo hw (fun _ hw r => resource_upTo hw r) fun _ hw r =>
    (resource_loses hw _ _ r).shrinks

theorem commonPages_upTo (hw : t.WellFormed) :
    Attempt.UpTo (commonPages x target c t) (commonPages {} target c t) :=
  FileTree.attemptAll_upTo hw (fun _ hw name => commonPage_upTo hw name) fun _ hw name =>
    (commonPage_loses hw _ _ name).shrinks

theorem namedPages_upTo (hw : t.WellFormed) :
    Attempt.UpTo (namedPages x target c t) (namedPages {} target c t) := by
  by_cases hx : x.listing t target = true
  · have hfail : namedPages x target c t = (t, false) := by simp [namedPages, hx]
    rw [hfail]
    exact ⟨by simp, fun _ => (namedPages_loses hw _ _ _).entryAt_eq_none⟩
  unfold namedPages
  rw [if_neg hx, if_neg (by simp)]
  split
  · exact .refl _
  · exact FileTree.attemptAll_upTo hw (fun _ hw _ => FileTree.tryRemoveFile_upTo hw)
      fun _ hw _ => (FileTree.tryRemoveFile_loses hw {}).shrinks

theorem fixed_shrinks (hw : t.WellFormed) :
    Shrinks t ((resources x target c t).andThen (commonPages x target c)).1 := by
  have hresources := (resources_loses hw x target c).shrinks
  exact FileTree.andThen_loses hresources (commonPages_loses hresources.wellFormed _ _ _).shrinks

/-- What a wipe takes away although something is refused, it takes away if nothing is. -/
theorem wipe_upTo (hw : t.WellFormed) : Attempt.UpTo (wipe target c t x) (wipe target c t) := by
  unfold wipe
  split
  · exact .refl _
  have hresources : ∀ {x}, Shrinks t (resources x target c t).1 :=
    (resources_loses hw _ _ _).shrinks
  have hfixed : ∀ {x}, Shrinks t ((resources x target c t).andThen (commonPages x target c)).1 :=
    fixed_shrinks hw
  have hcommon : Attempt.UpTo ((resources x target c t).andThen (commonPages x target c))
      ((resources {} target c t).andThen (commonPages {} target c)) :=
    (resources_upTo hw).andThen (fun _ => commonPages_upTo hresources.wellFormed)
      hresources.wellFormed (commonPages_loses hresources.wellFormed _ _ _).shrinks
  exact hcommon.andThen (fun _ => namedPages_upTo hfixed.wellFormed) hfixed.wellFormed
    (namedPages_loses hfixed.wellFormed _ _ _).shrinks

/-- The copies of the resources before this one are gone, and nothing else. -/
def ResourceTurn (target : Path) (c : Config) (t : FileTree) (r : Resource) (s : FileTree) : Prop :=
  IsTurn t (resource {} target) c.resources r s

/-- The copies of all resources and the pages before this one are gone, and nothing else. -/
def CommonPageTurn (target : Path) (c : Config) (t : FileTree) (name : String) (s : FileTree) :
    Prop :=
  ∃ u, resources {} target c t = (u, true) ∧
    IsTurn u (commonPage {} target) c.templates.common.keys name s

theorem resource_step {P : Location → Prop} : ∀ t', Loses t P t' → ∀ r ∈ c.resources,
    Shrinks t' (resource x target t' r).1 :=
  fun _ h r _ => (resource_loses h.wellFormed _ _ r).shrinks

theorem commonPage_step {P : Location → Prop} : ∀ t', Loses t P t' →
    ∀ name ∈ c.templates.common.keys, Shrinks t' (commonPage x target t' name).1 :=
  fun _ h name _ => (commonPage_loses h.wellFormed _ _ name).shrinks

theorem wipe_of_hasPath (h : t.hasPath target = true) : wipe target c t x =
    ((resources x target c t).andThen (commonPages x target c)).andThen (namedPages x target c) := by
  simp [wipe, h]

/-- What is gone after the copies of resources have been removed is gone after the wipe. -/
theorem resources_shrinks_wipe (hw : t.WellFormed) (h : t.hasPath target = true) :
    Shrinks (resources x target c t).1 (wipe target c t x).1 := by
  have hresources := (resources_loses hw x target c).wellFormed
  have hfixed : Shrinks (resources x target c t).1
      ((resources x target c t).andThen (commonPages x target c)).1 :=
    FileTree.andThen_loses (.refl hresources) (commonPages_loses hresources _ _ _).shrinks
  rw [wipe_of_hasPath h]
  exact FileTree.andThen_loses hfixed (namedPages_loses hfixed.wellFormed _ _ _).shrinks

theorem ResourceTurn.shrinks_wipe (hw : t.WellFormed) (h : t.hasPath target = true)
    (hs : ResourceTurn target c t r s) :
    Shrinks t s ∧ Shrinks (resource {} target s r).1 (wipe target c t).1 :=
  ⟨hs.loses hw resource_step, (hs.loses_after hw resource_step).trans (resources_shrinks_wipe hw h)⟩

theorem CommonPageTurn.shrinks_wipe (hw : t.WellFormed) (h : t.hasPath target = true)
    (hs : CommonPageTurn target c t name s) :
    Shrinks t s ∧ Shrinks (commonPage {} target s name).1 (wipe target c t).1 := by
  obtain ⟨u, hu, hs⟩ := hs
  have hresources : Shrinks t u := by
    simpa only [hu] using (resources_loses hw {} target c).shrinks
  have hafter : Shrinks (commonPage {} target s name).1 (commonPages {} target c u).1 :=
    hs.loses_after hresources.wellFormed commonPage_step
  refine ⟨hresources.trans (hs.loses hresources.wellFormed commonPage_step), ?_⟩
  rw [wipe_of_hasPath h, hu]
  simp only [Attempt.andThen, if_true]
  exact FileTree.andThen_loses hafter (namedPages_loses hafter.wellFormed _ _ _).shrinks

theorem NamedPageAt.top_le (h : NamedPageAt target c t loc)
    (htop : t.follow true target = .ok top) : top <+: loc := by
  obtain ⟨l, names, -, hl, -, rfl, -⟩ := h
  obtain rfl := eq_of_eq_ok hl htop
  exact List.prefix_append _ _

/-- Outside the target, what a wipe takes away goes at the turn of a resource or of a page with a
fixed name. -/
theorem exists_turn_of_outside (hw : t.WellFormed) (h : t.hasPath target = true)
    (htop : t.follow true target = .ok top) (hout : ¬top <+: loc) (he : t.entryAt loc = some e)
    (hgone : (wipe target c t).1.entryAt loc = none) :
    (∃ r s, ResourceTurn target c t r s ∧ s.entryAt loc = some e ∧
      (resource {} target s r).1.entryAt loc = none) ∨
    ∃ name s, CommonPageTurn target c t name s ∧ s.entryAt loc = some e ∧
      (commonPage {} target s name).1.entryAt loc = none := by
  rw [wipe_of_hasPath h] at hgone
  have hresources : Shrinks t (resources {} target c t).1 := (resources_loses hw _ _ _).shrinks
  -- `loc` goes in one of the three phases, the first of which is that of the resources
  rcases hresources.entry loc with hkept | ⟨hnow, -⟩
  case inr => exact .inl (FileTree.exists_turn_of_gone hw resource_step he hnow)
  by_cases hok : (resources {} target c t).2 = true
  case neg => simp [Attempt.andThen, hok, hkept, he] at hgone
  obtain ⟨u, hu⟩ : ∃ u, resources {} target c t = (u, true) := ⟨_, Prod.ext rfl hok⟩
  rw [hu] at hgone hresources hkept
  simp only [Attempt.andThen, if_true] at hgone
  have hcommon : Shrinks u (commonPages {} target c u).1 :=
    (commonPages_loses hresources.wellFormed _ _ _).shrinks
  rcases hcommon.entry loc with hkept' | ⟨hnow, -⟩
  case inr =>
    obtain ⟨name, s, hs, hse, hafter⟩ := FileTree.exists_turn_of_gone hresources.wellFormed
      commonPage_step (hkept.trans he) hnow
    exact .inr ⟨name, s, ⟨u, hu, hs⟩, hse, hafter⟩
  have hkept := hkept'.trans (hkept.trans he)
  split at hgone
  case isFalse => simp [hkept] at hgone
  -- the last phase takes away only what is below the target
  have hnamed : Loses (commonPages {} target c u).1 (NamedPageAt target c _)
      (namedPages {} target c (commonPages {} target c u).1).1 :=
    namedPages_loses hcommon.wellFormed {} target c
  rcases hnamed.entry loc with heq | ⟨-, hpage⟩
  · simp [heq, hkept] at hgone
  · exact absurd ((hpage.of_loses (hresources.trans hcommon)).top_le htop) hout

/-- At its turn, each copy of a resource lies below the target, or nothing can be removed of it, or
it lies above the target and its removal ends before it comes to what is outside; and each page
with a fixed name lies below the target. -/
structure StaysInside (target : Path) (top : Location) (c : Config) (t : FileTree) : Prop where
  resource : ∀ r s root, ResourceTurn target c t r s →
    s.follow true (target.join ⟨r.destination⟩) = .ok root → s.isDirAt root = true →
    top <+: root ∨
    (s.below root = [] ∧ ∀ s', s.removeDir (target.join ⟨r.destination⟩) ≠ .ok s') ∨
    (root <+: top ∧ ∀ loc, ¬top <+: loc →
      (Wipe.resource {} target s r).1.entryAt loc = s.entryAt loc)
  commonPage : ∀ name s loc, CommonPageTurn target c t name s → CommonPageAt target s name loc →
    top <+: loc

theorem hasPath_of_isDirAt (htop : t.follow true target = .ok top)
    (hdir : t.isDirAt top = true) : t.hasPath target = true := by
  simp [FileTree.hasPath, FileTree.stat_eq_ok_iff.2 ⟨htop, FileTree.isDirAt_iff.1 hdir⟩,
    Except.toBool]

theorem resource_of_below_eq_nil (hroot : s.follow true (target.join ⟨r.destination⟩) = .ok root)
    (hdir : s.isDirAt root = true) (hempty : s.below root = []) :
    resource {} target s r = s.tryRemoveDir {} (target.join ⟨r.destination⟩) := by
  have hwalk := FileTree.walk_of_follow hroot (FileTree.isDirAt_iff.1 hdir)
  rw [hempty, List.map_nil] at hwalk
  rw [resource, if_pos (FileTree.isDir_iff.2 ⟨root, hroot, hdir⟩), FileTree.removeAll,
    if_neg (by simp), hwalk]
  rfl

/-- A copy of a resource that is neither below nor above the target loses something outside, unless
nothing can be removed of it. -/
theorem exists_outside_of_resource (hw : s.WellFormed)
    (hroot : s.follow true (target.join ⟨r.destination⟩) = .ok root) (hdir : s.isDirAt root = true)
    (hbelow : ¬top <+: root) (habove : ¬root <+: top)
    (hremove : s.below root = [] → ∃ s', s.removeDir (target.join ⟨r.destination⟩) = .ok s') :
    ∃ loc e, ¬top <+: loc ∧ s.entryAt loc = some e ∧
      (resource {} target s r).1.entryAt loc = none := by
  by_cases hempty : s.below root = []
  · obtain ⟨s', hs'⟩ := hremove hempty
    have hok : (s.tryRemoveDir {} (target.join ⟨r.destination⟩)).2 = true := by
      simp [FileTree.tryRemoveDir, FileTree.attempt, hs']
    obtain ⟨l, hl, -, hgone⟩ := FileTree.exists_gone_of_tryRemoveDir hok
    obtain rfl := eq_of_eq_ok hl hroot
    refine ⟨l, .dir, hbelow, FileTree.isDirAt_iff.1 hdir, ?_⟩
    rw [resource_of_below_eq_nil hroot hdir hempty]
    refine hgone fun hnil => habove ?_
    exact hnil ▸ List.nil_prefix
  · obtain ⟨loc, e, hle, -, he, hgone⟩ :=
      FileTree.exists_gone_of_removeAll hw hroot hdir hempty
    rw [resource, if_pos (FileTree.isDir_iff.2 ⟨root, hroot, hdir⟩)]
    refine ⟨loc, e, fun htop => ?_, he, hgone⟩
    rcases List.prefix_or_prefix_of_prefix htop hle with h | h
    · exact hbelow h
    · exact habove h

theorem commonPage_gone (hpage : CommonPageAt target s name loc) :
    (commonPage {} target s name).1.entryAt loc = none := by
  obtain ⟨e, he, hdir⟩ := hpage.exists_entry
  have hok : (s.tryRemoveFile {} (target.join ⟨name⟩)).2 = true := by
    simp [FileTree.tryRemoveFile, FileTree.attempt,
      FileTree.removeFile_of_entryAt hpage.2 he hdir]
  obtain ⟨l, -, hl, -, hgone⟩ := FileTree.exists_gone_of_tryRemoveFile hok
  obtain rfl := eq_of_eq_ok hl hpage.2
  rwa [commonPage, if_pos hpage.1]

/-- If the whole wipe changes nothing outside, neither does a resource at its turn. -/
theorem ResourceTurn.unchanged (hw : t.WellFormed) (h : t.hasPath target = true)
    (hs : ResourceTurn target c t r s)
    (hkept : (wipe target c t).1.entryAt loc = t.entryAt loc) :
    (resource {} target s r).1.entryAt loc = s.entryAt loc := by
  obtain ⟨hts, hafter⟩ := hs.shrinks_wipe hw h
  rcases (resource_loses hts.wellFormed {} target r).entry loc with heq | ⟨hgone, -⟩
  · exact heq
  cases he : s.entryAt loc with
  | none => exact hgone
  | some e =>
    rw [hafter.entryAt_eq_none hgone, hts.entryAt_eq he] at hkept
    contradiction

theorem staysInside_of_unchanged (hw : t.WellFormed) (h : t.hasPath target = true)
    (hkept : ∀ loc, ¬top <+: loc → (wipe target c t).1.entryAt loc = t.entryAt loc) :
    StaysInside target top c t where
  resource r s root hs hroot hdir := by
    have hts := (hs.shrinks_wipe hw h).1
    have hturn : ∀ loc, ¬top <+: loc →
        (resource {} target s r).1.entryAt loc = s.entryAt loc := fun loc hout =>
      hs.unchanged hw h (hkept loc hout)
    by_cases hbelow : top <+: root
    · exact .inl hbelow
    by_cases habove : root <+: top
    · exact .inr (.inr ⟨habove, hturn⟩)
    refine .inr (.inl ?_)
    -- elsewhere, whatever can be removed would be missed outside
    by_cases hstay : s.below root = [] ∧ ∀ s', s.removeDir (target.join ⟨r.destination⟩) ≠ .ok s'
    · exact hstay
    · obtain ⟨loc, e, hout, he, hgone⟩ :=
        exists_outside_of_resource hts.wellFormed hroot hdir hbelow habove fun hempty =>
          Classical.byContradiction fun hno => hstay ⟨hempty, fun s' hs' => hno ⟨s', hs'⟩⟩
      have hkeep := hturn loc hout
      rw [hgone, he] at hkeep
      contradiction
  commonPage name s loc hs hpage := by
    obtain ⟨hts, hafter⟩ := hs.shrinks_wipe hw h
    obtain ⟨e, he, -⟩ := hpage.exists_entry
    refine Classical.byContradiction fun hout => ?_
    have hfinal := hkept loc hout
    rw [hafter.entryAt_eq_none (commonPage_gone hpage), hts.entryAt_eq he] at hfinal
    contradiction

/-- The removal of a copy that stays inside changes nothing outside. -/
theorem StaysInside.resource_unchanged (hstays : StaysInside target top c t) (hw : s.WellFormed)
    (hs : ResourceTurn target c t r s) (hout : ¬top <+: loc) :
    (Wipe.resource {} target s r).1.entryAt loc = s.entryAt loc := by
  rcases (resource_loses hw {} target r).entry loc with heq | ⟨-, root, hroot, hdir, hle⟩
  · exact heq
  rcases hstays.resource r s root hs hroot hdir with hin | ⟨hempty, hstay⟩ | ⟨-, hsame⟩
  · exact absurd (hin.trans hle) hout
  · have hfail : s.tryRemoveDir {} (target.join ⟨r.destination⟩) = (s, false) := by
      cases hremove : s.removeDir (target.join ⟨r.destination⟩) with
      | ok s' => exact absurd hremove (hstay s')
      | error cause => simp [FileTree.tryRemoveDir, FileTree.attempt, hremove]
    rw [resource_of_below_eq_nil hroot hdir hempty, hfail]
  · exact hsame loc hout

theorem StaysInside.commonPage_unchanged (hstays : StaysInside target top c t) (hw : s.WellFormed)
    (hs : CommonPageTurn target c t name s) (hout : ¬top <+: loc) :
    (Wipe.commonPage {} target s name).1.entryAt loc = s.entryAt loc := by
  rcases (commonPage_loses hw {} target name).entry loc with heq | ⟨-, hpage⟩
  · exact heq
  · exact absurd (hstays.commonPage name s loc hs hpage) hout

theorem unchanged_of_staysInside (hw : t.WellFormed) (h : t.hasPath target = true)
    (htop : t.follow true target = .ok top) (hstays : StaysInside target top c t)
    (hout : ¬top <+: loc) : (wipe target c t).1.entryAt loc = t.entryAt loc := by
  rcases (wipe_loses hw {} target c).entry loc with heq | ⟨hgone, -⟩
  · exact heq
  cases he : t.entryAt loc with
  | none => exact hgone
  | some e =>
    exfalso
    rcases exists_turn_of_outside hw h htop hout he hgone with
      ⟨r, s, hs, hse, hnow⟩ | ⟨name, s, hs, hse, hnow⟩
    · have hts := (hs.shrinks_wipe hw h).1
      rw [hstays.resource_unchanged hts.wellFormed hs hout, hse] at hnow
      contradiction
    · have hts := (hs.shrinks_wipe hw h).1
      rw [hstays.commonPage_unchanged hts.wellFormed hs hout, hse] at hnow
      contradiction

/-- Without links below the target, checked names lead to nothing outside. -/
theorem staysInside_of_no_links (hc : c.Valid) (hw : t.WellFormed) (h : t.hasPath target = true)
    (htop : t.follow true target = .ok top) (hlinks : ¬t.LinkBelow top)
    (hnames : ∀ name ∈ c.templates.common.keys, Config.leavesOutput name = false) :
    StaysInside target top c t where
  resource r s root hs hroot hdir := by
    obtain ⟨-, hrel, hup⟩ := Config.leavesOutput_eq_false_iff.1 (hc.destination r hs.mem)
    have hroot := (hs.shrinks_wipe hw h).1.follow hroot (FileTree.isDirAt_iff.1 hdir)
    exact .inl (FileTree.prefix_of_follow_join htop hrel hup hlinks hroot)
  commonPage name s loc hs hpage := by
    have hpage := hpage.of_loses (hs.shrinks_wipe hw h).1
    obtain ⟨u, -, hs⟩ := hs
    obtain ⟨-, hrel, hup⟩ := Config.leavesOutput_eq_false_iff.1 (hnames name hs.mem)
    exact FileTree.prefix_of_follow_join htop hrel hup hlinks hpage.2

end Wipe

/-- A wipe with an accepted configuration changes nothing outside its target, whatever is refused
and whether or not it succeeds, exactly if what has to be removed by name stays inside. It does if
there are no links below the target and the names of pages are such as destinations may be. -/
theorem outside_wipe_iff {env : Config.Environment} {text : String} {base : Path}
    (hc : Config.ofToml env text base = .ok c) (hw : t.WellFormed)
    (htop : t.follow true target = .ok top) (hdir : t.isDirAt top = true) :
    ((∀ x loc, ¬top <+: loc → (wipe target c t x).1.entryAt loc = t.entryAt loc) ↔
      Wipe.StaysInside target top c t) ∧
    (¬t.LinkBelow top → (∀ name ∈ c.templates.common.keys, Config.leavesOutput name = false) →
      Wipe.StaysInside target top c t) := by
  have h := Wipe.hasPath_of_isDirAt htop hdir
  refine ⟨⟨fun hkept => Wipe.staysInside_of_unchanged hw h (hkept {}), ?_⟩,
    Wipe.staysInside_of_no_links (Config.valid_of_ofToml hc) hw h htop⟩
  intro hstays x loc hout
  rcases (Wipe.wipe_loses hw x target c).entry loc with heq | ⟨hgone, -⟩
  · exact heq
  · rw [hgone, ← Wipe.unchanged_of_staysInside hw h htop hstays hout]
    exact ((Wipe.wipe_upTo hw).gone loc hgone).symm

namespace Wipe

theorem usedOutput_follow : usedOutput.follow true ⟨"out"⟩ = .ok ["out"] :=
  toOption_eq_some_iff.1 (by decide +kernel)

theorem wipe_usedOutput_stays_inside : ∃ c,
    Config.ofToml [] "[resources]\nres = \"css\"\n[templates.common]\n\"index.html\" = \"o.html\"\n"
      ⟨"."⟩ = .ok c ∧ ∀ x loc, ¬["out"] <+: loc →
        (wipe ⟨"out"⟩ c usedOutput x).1.entryAt loc = usedOutput.entryAt loc := by
  have hkeys : (Config.ofToml []
      "[resources]\nres = \"css\"\n[templates.common]\n\"index.html\" = \"o.html\"\n"
      ⟨"."⟩).toOption.map (fun c => c.templates.common.keys) = some ["index.html"] := by
    decide +kernel
  cases hc : Config.ofToml []
    "[resources]\nres = \"css\"\n[templates.common]\n\"index.html\" = \"o.html\"\n" ⟨"."⟩ with
  | error cause => simp [hc, Except.toOption] at hkeys
  | ok c =>
    obtain ⟨hiff, hstays⟩ :=
      outside_wipe_iff hc usedOutput_wellFormed usedOutput_follow (by decide +kernel)
    refine ⟨c, rfl, hiff.2 (hstays ?_ ?_)⟩
    · rintro ⟨loc, dest, -, -, hlink⟩
      exact usedOutput_no_links loc dest hlink
    · have hnames : c.templates.common.keys = ["index.html"] := by
        simpa [hc, Except.toOption] using hkeys
      rw [hnames]
      decide +kernel

def linkedOutput : FileTree where
  entries := [
    (["out"], .dir), (["out", "assets"], .link ⟨"../outside"⟩), (["outside"], .dir),
    (["outside", "keep.txt"], .file .empty)]
  current := []

def emptyOutput : FileTree where
  entries := [(["index.html"], .file .empty), (["out"], .dir)]
  current := []

theorem linkedOutput_wellFormed : linkedOutput.WellFormed :=
  ⟨by decide +kernel, by decide +kernel, by decide +kernel⟩

theorem emptyOutput_wellFormed : emptyOutput.WellFormed :=
  ⟨by decide +kernel, by decide +kernel, by decide +kernel⟩

/-- A link in the place of a copy, and the name of a page with an `..`: both are accepted, and both
make a wipe take away a file outside its target. -/
theorem wipe_leaves_target :
    (linkedOutput.WellFormed ∧ linkedOutput.isDir ⟨"out"⟩ = true ∧
      linkedOutput.entryAt ["outside", "keep.txt"] = some (.file .empty) ∧
      (Config.ofToml [] "[resources]\nres = \"assets\"\n" ⟨"."⟩).toOption.map (fun c =>
        ((wipe ⟨"out"⟩ c linkedOutput).1.entryAt ["outside", "keep.txt"]).isNone) = some true) ∧
    (emptyOutput.WellFormed ∧ emptyOutput.isDir ⟨"out"⟩ = true ∧
      emptyOutput.entryAt ["index.html"] = some (.file .empty) ∧
      (Config.ofToml [] "[templates.common]\n\"../index.html\" = \"o.html\"\n" ⟨"."⟩).toOption.map
        (fun c => ((wipe ⟨"out"⟩ c emptyOutput).1.entryAt ["index.html"]).isNone) = some true) := by
  constructor
  · exact ⟨linkedOutput_wellFormed, by decide +kernel, rfl, by decide +kernel⟩
  · exact ⟨emptyOutput_wellFormed, by decide +kernel, rfl, by decide +kernel⟩

end Wipe
end DocSite
