import DocSite.Proofs.Wipe.Confinement

namespace DocSite

open FileTree (Loses Shrinks IsTurn Refusals Attempt)

variable {t t' u₁ u₂ s : FileTree} {loc top : Location} {x : Refusals} {target : Path} {c : Config}
variable {r : Resource} {e : Entry} {bytes : ByteArray}

namespace Wipe

/-- The trees after the phases of a wipe that succeeds. The target stays where it was. -/
structure Phases (target : Path) (top : Location) (c : Config) (t u₁ u₂ t' : FileTree) : Prop where
  wellFormed : t.WellFormed
  resources : Wipe.resources {} target c t = (u₁, true)
  commonPages : Wipe.commonPages {} target c u₁ = (u₂, true)
  namedPages : Wipe.namedPages {} target c u₂ = (t', true)
  wipe : DocSite.wipe target c t = (t', true)
  hasPath : t.hasPath target = true
  follow : u₂.follow true target = .ok top
  isDirAt : u₂.isDirAt top = true

/-- To list the files that a pattern could have named, the target must be there. -/
theorem follow_of_namedPages {u : FileTree} (htop : t.follow true target = .ok top)
    (hu : Shrinks t u) (hok : (namedPages {} target c u).2 = true) :
    u.follow true target = .ok top ∧ ∃ e, u.entryAt top = some e := by
  unfold namedPages at hok
  rw [if_neg (by simp)] at hok
  split at hok
  · simp at hok
  rename_i found hwalk
  obtain ⟨l, e, hl, he⟩ := FileTree.exists_root_of_walk hwalk
  obtain rfl := eq_of_eq_ok (hu.follow hl he) htop
  exact ⟨hl, e, he⟩

/-- After the files that a pattern could have named have been removed, none of them is left. -/
theorem namedPages_gone (hw : t.WellFormed) (hok : (namedPages x target c t).2 = true)
    (hpage : NamedPageAt target c t loc) : (namedPages x target c t).1.entryAt loc = none := by
  obtain ⟨top, names, bytes, htop, hne, rfl, he, kind, pattern, hp, hcould⟩ := hpage
  unfold namedPages at *
  split at hok
  · simp at hok
  rename_i hx
  rw [if_neg hx]
  split at hok
  · simp at hok
  rename_i found hwalk
  have hf : t.FoundIn target top ⟨names, FileTree.Found.pathBelow target names, .file bytes⟩ :=
    ⟨htop, hne, rfl, he⟩
  have hmem := List.mem_filter.2 ⟨(FileTree.mem_walk_iff hw hwalk htop).2 hf,
    isNamed_iff.2 ⟨⟨bytes, rfl⟩, kind, pattern, hp, hcould⟩⟩
  have hstep : ∀ u, Loses t (fun _ => True) u → ∀ f ∈ found.filter (isNamed c),
      Shrinks u (u.tryRemoveFile x f.path).1 := fun u h f _ =>
    (FileTree.tryRemoveFile_loses h.wellFormed x).shrinks
  obtain ⟨s, hs, hsok⟩ := FileTree.exists_turn_of_true hok hmem
  obtain ⟨l, e, hl, hle, hgone⟩ := FileTree.exists_gone_of_tryRemoveFile hsok
  have hmine := hf.follow_path hw false (by simp)
  obtain rfl := eq_of_eq_ok ((hs.loses hw hstep).follow hl hle) hmine
  exact (hs.loses_after hw hstep).entryAt_eq_none hgone

theorem exists_phases (hw : t.WellFormed) (htop : t.follow true target = .ok top)
    (hdir : t.isDirAt top = true) (hok : (wipe target c t x).2 = true) :
    ∃ u₁ u₂, Phases target top c t u₁ u₂ (wipe target c t x).1 := by
  have h := hasPath_of_isDirAt htop hdir
  -- a wipe that succeeds was refused nothing
  have hsame := (wipe_upTo hw).eq_of_true hok
  rw [← hsame] at hok ⊢
  have hwipe : wipe target c t = ((wipe target c t).1, true) := Prod.ext rfl hok
  have hparts : wipe target c t = _ := wipe_of_hasPath h
  have hshrinks : Shrinks t ((resources {} target c t).andThen (commonPages {} target c)).1 :=
    fixed_shrinks hw
  rw [hparts] at hok
  obtain ⟨hfixed, hnamed⟩ := FileTree.andThen_eq_of_true hok
  obtain ⟨hresources, hcommon⟩ := FileTree.andThen_eq_of_true hfixed
  rw [hcommon] at hfixed hnamed hparts hshrinks
  rw [hnamed] at hparts
  obtain ⟨hfollow, e, he⟩ := follow_of_namedPages htop hshrinks (by rw [← hparts, hwipe])
  exact ⟨_, _, hw, Prod.ext rfl hresources, Prod.ext rfl hfixed, hparts.symm.trans hwipe, hwipe, h,
    hfollow, hshrinks.isDirAt_of_entryAt hdir he⟩

namespace Phases

theorem first (h : Phases target top c t u₁ u₂ t') : Shrinks t u₁ := by
  have hall := (resources_loses h.wellFormed {} target c).shrinks
  rwa [h.resources] at hall

theorem second (h : Phases target top c t u₁ u₂ t') : Shrinks u₁ u₂ := by
  have hall := (commonPages_loses h.first.wellFormed {} target c).shrinks
  rwa [h.commonPages] at hall

theorem named_loses (h : Phases target top c t u₁ u₂ t') :
    Loses u₂ (NamedPageAt target c u₂) t' := by
  have hall := namedPages_loses h.second.wellFormed {} target c
  rwa [h.namedPages] at hall

theorem third (h : Phases target top c t u₁ u₂ t') : Shrinks u₂ t' := h.named_loses.shrinks

/-- Each copy of a resource has its turn, and what goes then stays gone. -/
theorem exists_resourceTurn (h : Phases target top c t u₁ u₂ t') (hr : r ∈ c.resources) :
    ∃ s, Shrinks t s ∧ (resource {} target s r).2 = true ∧
      Shrinks (resource {} target s r).1 u₁ := by
  have hok : (t.attemptAll (resource {} target) c.resources).2 = true := by
    rw [← Wipe.resources, h.resources]
  obtain ⟨s, hs, hsok⟩ := FileTree.exists_turn_of_true hok hr
  have hafter := hs.loses_after h.wellFormed resource_step
  rw [← Wipe.resources, h.resources] at hafter
  exact ⟨s, hs.loses h.wellFormed resource_step, hsok, hafter⟩

/-- Each fixed name has its turn, between the first two phases. -/
theorem exists_commonPageTurn (h : Phases target top c t u₁ u₂ t') {name : String}
    (hname : name ∈ c.templates.common.keys) :
    ∃ s, CommonPageTurn target c t name s ∧ Shrinks u₁ s ∧ Shrinks s u₂ := by
  have hok : (u₁.attemptAll (commonPage {} target) c.templates.common.keys).2 = true := by
    rw [← Wipe.commonPages, h.commonPages]
  obtain ⟨s, hs, -⟩ := FileTree.exists_turn_of_true hok hname
  have hbefore : Shrinks u₁ s := hs.loses h.first.wellFormed commonPage_step
  have hafter := hs.loses_after h.first.wellFormed commonPage_step
  rw [← Wipe.commonPages, h.commonPages] at hafter
  exact ⟨s, ⟨u₁, h.resources, hs⟩, hbefore,
    (commonPage_loses hbefore.wellFormed {} target name).shrinks.trans hafter⟩

/-- After the copies of resources have been removed, none of them is left. -/
theorem copy_gone (h : Phases target top c t u₁ u₂ t') (hc : c.Valid)
    (htop : t.follow true target = .ok top) (hlinks : ¬t.LinkBelow top) (hr : r ∈ c.resources)
    (hin : t.InDir (target.join ⟨r.destination⟩) loc) (hne : loc ≠ []) :
    u₁.entryAt loc = none := by
  cases he : u₁.entryAt loc with
  | none => rfl
  | some e =>
    exfalso
    obtain ⟨-, hrel, hup⟩ := Config.leavesOutput_eq_false_iff.1 (hc.destination r hr)
    obtain ⟨root, hroot, hrootdir, hle⟩ := hin
    obtain ⟨s, hts, hsok, hafter⟩ := h.exists_resourceTurn hr
    have hsu := (resource_loses hts.wellFormed {} target r).shrinks.trans hafter
    have htopdir := FileTree.isDirAt_iff.1 h.isDirAt
    have hstop := (hsu.trans h.second).follow h.follow htopdir
    -- what is left at `loc` keeps the directory of the copy where it was
    have hsroot : s.isDirAt root = true := by
      by_cases heq : root = loc
      · exact hts.isDirAt_of_entryAt hrootdir (heq ▸ hsu.entryAt_eq he)
      · exact hts.wellFormed.isDirAt_of_prefix (hsu.entryAt_eq he) hle heq
    have hrooteq := FileTree.eq_append_namesOf_of_follow_join htop hrel hup hlinks hroot
    have hleads : s.follow true (target.join ⟨r.destination⟩) = .ok root := by
      refine FileTree.follow_join hstop ((hsu.trans h.second).isDirAt h.isDirAt) hrel
        fun links => ?_
      rw [hrooteq] at hsroot ⊢
      exact FileTree.leads_of_isDirAt hts.wellFormed hup hsroot links
    rw [resource, if_pos (FileTree.isDir_iff.2 ⟨root, hleads, hsroot⟩)] at hsok hafter
    have hgone := FileTree.removeAll_gone hts.wellFormed hsok ⟨root, hleads, hsroot, hle⟩ hne
    rw [hafter.entryAt_eq_none hgone] at he
    contradiction

theorem namedPage_gone (h : Phases target top c t u₁ u₂ t') (hpage : NamedPageAt target c u₂ loc) :
    t'.entryAt loc = none := by
  have hgone := namedPages_gone h.second.wellFormed (by rw [h.namedPages]) hpage
  rwa [h.namedPages] at hgone

/-- A page with a fixed name that was found at its turn is gone in the end. -/
theorem commonPage_gone (h : Phases target top c t u₁ u₂ t') {name : String}
    (hs : CommonPageTurn target c t name s) (hpage : CommonPageAt target s name loc) :
    t'.entryAt loc = none := by
  have hafter := (hs.shrinks_wipe h.wellFormed h.hasPath).2
  rw [h.wipe] at hafter
  exact hafter.entryAt_eq_none (Wipe.commonPage_gone hpage)

theorem left (h : Phases target top c t u₁ u₂ t') (he : t.entryAt loc = some e)
    (hcopy : ∀ r ∈ c.resources, ¬t.InDir (target.join ⟨r.destination⟩) loc)
    (hfixed : ∀ name s, CommonPageTurn target c t name s → ¬CommonPageAt target s name loc)
    (hnamed : ¬NamedPageAt target c u₂ loc) : t'.entryAt loc = some e := by
  have hleft₁ : u₁.entryAt loc = some e := by
    rcases (resources_loses h.wellFormed {} target c).entry loc with heq | ⟨-, r, hr, hin⟩
    · rw [h.resources] at heq
      rw [heq, he]
    · exact absurd hin (hcopy r hr)
  have hleft₂ : u₂.entryAt loc = some e := by
    rcases h.second.entry loc with heq | ⟨hgone, -⟩
    · rw [heq, hleft₁]
    have hgone' : (u₁.attemptAll (commonPage {} target) c.templates.common.keys).1.entryAt loc =
        none := by rwa [← Wipe.commonPages, h.commonPages]
    obtain ⟨name, s, hs, hse, hnow⟩ :=
      FileTree.exists_turn_of_gone h.first.wellFormed commonPage_step hleft₁ hgone'
    have hus : Shrinks u₁ s := hs.loses h.first.wellFormed commonPage_step
    rcases (commonPage_loses hus.wellFormed {} target name).entry loc with heq | ⟨-, hpage⟩
    · simp [heq, hse] at hnow
    · exact absurd hpage (hfixed name s ⟨u₁, h.resources, hs⟩)
  rcases h.named_loses.entry loc with heq | ⟨-, hpage⟩
  · rw [heq, hleft₂]
  · exact absurd hpage hnamed

/-- A file that is still there at the end was found at the turn of a checked name that leads to
it. -/
theorem exists_turn_of_checked (h : Phases target top c t u₁ u₂ t') {name : String}
    (htop : t.follow true target = .ok top) (hlinks : ¬t.LinkBelow top)
    (hname : name ∈ c.templates.common.keys) (hchecked : Config.leavesOutput name = false)
    (hloc : t.follow true (target.join ⟨name⟩) = .ok loc)
    (hleft : t'.entryAt loc = some (.file bytes)) :
    ∃ s, CommonPageTurn target c t name s ∧ CommonPageAt target s name loc := by
  obtain ⟨s, hs, hbefore, hafter⟩ := h.exists_commonPageTurn hname
  have hts := h.first.trans hbefore
  have hstop := hafter.follow h.follow (FileTree.isDirAt_iff.1 h.isDirAt)
  have hsfile := (hafter.trans h.third).entryAt_eq hleft
  obtain ⟨-, hrel, hup⟩ := Config.leavesOutput_eq_false_iff.1 hchecked
  obtain ⟨links, hleads⟩ := FileTree.leads_of_follow_join htop hrel hloc
  -- the name leads to the same place through its last link or not
  have hfollow : ∀ last, s.follow last (target.join ⟨name⟩) = .ok loc := fun last =>
    FileTree.follow_join hstop (hafter.isDirAt h.isDirAt) hrel fun links =>
      hleads.of_within hup (List.prefix_refl _) hlinks hts.wellFormed hts.within hsfile last links
  exact ⟨s, hs, FileTree.isFile_iff.2 ⟨loc, bytes, hfollow true, hsfile⟩, hfollow false⟩

end Phases

/-- Below the target, a file stands where a pattern could have named it if its names do. -/
theorem namedPageAt_iff (htop : t.follow true target = .ok top) (hdir : t.isDirAt top = true)
    (he : t.entryAt loc = some (.file bytes)) : NamedPageAt target c t loc ↔
      ∃ kind pattern names, (kind, pattern) ∈ c.filenames.patterns ∧ loc = top ++ names ∧
        Filenames.CouldName pattern names := by
  constructor
  · rintro ⟨l, names, -, hl, -, hloc, -, kind, pattern, hp, hcould⟩
    obtain rfl := eq_of_eq_ok hl htop
    exact ⟨kind, pattern, names, hp, hloc, hcould⟩
  · rintro ⟨kind, pattern, names, hp, hloc, hcould⟩
    have hnames : names ≠ [] := by
      rintro rfl
      rw [hloc, List.append_nil, FileTree.isDirAt_iff.1 hdir] at he
      simp at he
    exact ⟨top, names, bytes, htop, hnames, hloc, he, kind, pattern, hp, hcould⟩

end Wipe

open Wipe in
/-- A wipe that succeeds leaves the files below the target that are in no copy of a resource, that
no fixed name leads to at its turn and that no pattern could have named. -/
theorem file_left_iff (hc : c.Valid) (hw : t.WellFormed) (htop : t.follow true target = .ok top)
    (hdir : t.isDirAt top = true) (hlinks : ¬t.LinkBelow top)
    (hok : (wipe target c t x).2 = true) :
    (∃ bytes, (wipe target c t x).1.entryAt loc = some (.file bytes)) ↔
      (∃ bytes, t.entryAt loc = some (.file bytes)) ∧
      (∀ r ∈ c.resources, ¬t.InDir (target.join ⟨r.destination⟩) loc) ∧
      (∀ name s, CommonPageTurn target c t name s → ¬CommonPageAt target s name loc) ∧
      ∀ kind pattern names, (kind, pattern) ∈ c.filenames.patterns → loc = top ++ names →
        ¬Filenames.CouldName pattern names := by
  obtain ⟨u₁, u₂, h⟩ := exists_phases hw htop hdir hok
  have hu := h.first.trans h.second
  constructor
  · rintro ⟨bytes, hleft⟩
    have he₂ := h.third.entryAt_eq hleft
    have hne : loc ≠ [] := by
      rintro rfl
      simp at hleft
    have hnot : (wipe target c t x).1.entryAt loc ≠ none := by simp [hleft]
    refine ⟨⟨bytes, hu.entryAt_eq he₂⟩, ?_, ?_, ?_⟩
    · intro r hr hin
      have hgone := h.copy_gone hc htop hlinks hr hin hne
      exact hnot ((h.second.trans h.third).entryAt_eq_none hgone)
    · intro name s hs hpage
      exact hnot (h.commonPage_gone hs hpage)
    · intro kind pattern names hp hloc hcould
      have hpage := (namedPageAt_iff h.follow h.isDirAt he₂).2
        ⟨kind, pattern, names, hp, hloc, hcould⟩
      exact hnot (h.namedPage_gone hpage)
  · rintro ⟨⟨bytes, he⟩, hcopy, hfixed, hnamed⟩
    refine ⟨bytes, h.left he hcopy hfixed fun hpage => ?_⟩
    obtain ⟨kind, pattern, names, hp, hloc, hcould⟩ :=
      (namedPageAt_iff htop hdir he).1 (hpage.of_loses hu)
    exact hnamed kind pattern names hp hloc hcould

end DocSite
