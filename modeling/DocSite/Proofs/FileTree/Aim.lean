import DocSite.Proofs.FileTree.Replay

namespace DocSite.FileTree

/-- Segments lead from a location to another one if everything that they name on their way is there.
Only the links of the tree count. -/
inductive Aims (t : FileTree) : Location → List String → Location → Prop
  | arrived {loc} : Aims t loc [] loc
  | here {loc seg rest l} (hseg : seg = "" ∨ seg = ".") (h : Aims t loc rest l) :
      Aims t loc (seg :: rest) l
  | up {loc rest l} (h : Aims t loc.dropLast rest l) : Aims t loc (".." :: rest) l
  | through {loc seg rest l target} (hseg : IsStep seg)
      (hentry : t.entryAt (loc ++ [seg]) = some (.link target))
      (h : Aims t (if target.isAbsolute then [] else loc) (target.segments ++ rest) l) :
      Aims t loc (seg :: rest) l
  | child {loc seg rest l} (hseg : IsStep seg)
      (hentry : ∀ target, t.entryAt (loc ++ [seg]) ≠ some (.link target))
      (h : Aims t (loc ++ [seg]) rest l) : Aims t loc (seg :: rest) l

variable {t u u' v : FileTree} {loc l top root : Location} {segs : List String} {p q dir : Path}
variable {e : Entry} {links : Nat} {P : Location → Prop}

/-- A path would lead to a location. -/
def AimsAt (t : FileTree) (p : Path) (loc : Location) : Prop :=
  Aims t (if p.isAbsolute then [] else t.current) p.segments loc

/-- A path that goes down from a location would lead to another one. -/
def Reaches (t : FileTree) (top loc : Location) : Prop :=
  ∃ segs, ".." ∉ segs ∧ Aims t top segs loc

/-- No path that goes down from `top` would lead to `root` or below it. -/
def OutOfReach (t : FileTree) (top root : Location) : Prop :=
  ∀ loc, t.Reaches top loc → ¬root <+: loc

/-- Where a path leads in a tree with the same links it leads according to these. -/
theorem Leads.aims (h : Leads u true links loc segs l)
    (hlinks : ∀ loc dest, u.entryAt loc = some (.link dest) ↔ t.entryAt loc = some (.link dest)) :
    Aims t loc segs l := by
  induction h with
  | arrived => exact .arrived
  | here _ hseg _ ih => exact .here hseg ih
  | up _ _ ih => exact .up ih
  | missing _ hseg hentry =>
    exact .child hseg (fun target hlink => by simp [(hlinks _ target).2 hlink] at hentry) .arrived
  | atLink _ _ _ hlast => simp at hlast
  | through _ hseg hentry _ _ _ ih => exact .through hseg ((hlinks _ _).1 hentry) ih
  | child _ hseg hentry hne _ ih =>
    refine .child hseg (fun target hlink => hne target ?_) ih
    rw [(hlinks _ target).2 hlink] at hentry
    exact (Option.some.inj hentry).symm

/-- Without links below a location, paths that go down from it would lead where their names say. -/
theorem Aims.eq_append_namesOf (h : Aims t loc segs l) (hup : ".." ∉ segs) (hle : top <+: loc)
    (hlinks : ¬t.LinkBelow top) : l = loc ++ namesOf segs := by
  induction h with
  | arrived => simp [namesOf]
  | here hseg _ ih =>
    rw [namesOf_cons_of_here hseg]
    exact ih (fun h => hup (.tail _ h)) hle
  | up => exact absurd (.head _) hup
  | through _ hentry => exact absurd (.of_concat hle hentry) hlinks
  | child hseg _ _ ih =>
    rw [namesOf_cons hseg, ih (fun h => hup (.tail _ h)) (hle.trans (List.prefix_append _ _)),
      List.append_assoc, List.singleton_append]

/-- Without links below a location, only what is above or below it is in its reach. -/
theorem outOfReach_of_no_links (hlinks : ¬t.LinkBelow top) (habove : ¬root <+: top)
    (hbelow : ¬top <+: root) : t.OutOfReach top root := by
  rintro loc ⟨segs, hup, haims⟩ hle
  obtain rfl := haims.eq_append_namesOf hup (List.prefix_refl _) hlinks
  rcases List.prefix_or_prefix_of_prefix hle (List.prefix_append _ _) with h | h
  · exact habove h
  · exact hbelow h

/-- The second tree has the entries of the first and more, and the same links. What it has anew or
with other bytes is in reach of a location. -/
structure GrowsInReach (t : FileTree) (top : Location) (u : FileTree) : Prop extends
    Grows t (fun _ => True) u where
  entry : ∀ loc, u.entryAt loc = t.entryAt loc ∨ t.Reaches top loc

namespace GrowsInReach

theorem refl (hs : t.Sorted) : GrowsInReach t top t := ⟨.refl hs, fun _ => .inl rfl⟩

theorem step (h : GrowsInReach t top u) (hgrows : Grows u P u')
    (hentry : ∀ loc, u'.entryAt loc = u.entryAt loc ∨ t.Reaches top loc) :
    GrowsInReach t top u' where
  toGrows := h.toGrows.trans (hgrows.mono fun _ _ => trivial)
  entry loc := by
    rcases hentry loc with heq | hreach
    · exact (h.entry loc).imp_left heq.trans
    · exact .inr hreach

theorem link_iff (h : GrowsInReach t top u) (loc : Location) (dest : Path) :
    u.entryAt loc = some (.link dest) ↔ t.entryAt loc = some (.link dest) :=
  ⟨h.link loc dest, h.within.link⟩

/-- A path that goes down from the location leads into its reach. -/
theorem reaches_of_follow (h : GrowsInReach t top u) (htop : u.follow true p = .ok top)
    (hq : q.GoesDown) (hloc : u.follow true (p.join q) = .ok loc) : t.Reaches top loc := by
  obtain ⟨links, hleads⟩ := leads_of_follow_join htop hq.1 hloc
  exact ⟨q.segments, hq.2, hleads.aims h.link_iff⟩

/-- The directories that are created on the way of such a path are in its reach as well. -/
theorem createDirAll (h : GrowsInReach t top u) (htop : u.follow true p = .ok top)
    (hdir : u.isDirAt top = true) (hq : q.GoesDown) (hparent : (p.join q).parent = some dir)
    (loc : Location) : (u.createDirAll dir).1.entryAt loc = u.entryAt loc ∨
      (u.entryAt loc = none ∧ (u.createDirAll dir).1.entryAt loc = some .dir ∧
        t.Reaches top loc) := by
  by_cases htrivial : dir.text = "" ∨ dir.text = "/"
  · left
    rw [FileTree.createDirAll, createDirs_of_parent_eq_none (Path.parent_eq_none htrivial)]
  rw [not_or] at htrivial
  refine (createDirs_created h.sorted (dir.components.length + 1) loc).imp_right fun hnew => ?_
  refine ⟨hnew.missing, hnew.isDir, ?_⟩
  have hgrows : Grows u (fun _ => True) (u.createDirAll dir).1 := createDirAll_grows h.sorted
  have hlinks : ∀ loc dest, (u.createDirAll dir).1.entryAt loc = some (.link dest) ↔
      t.entryAt loc = some (.link dest) := fun loc dest =>
    (Iff.intro (hgrows.link loc dest) hgrows.within.link).trans (h.link_iff loc dest)
  have hpasses := hnew.passes.of_parent hparent htrivial.1 htrivial.2
  rcases hpasses.exists_leads_of_join hgrows.within htop hdir hq with
    ⟨e, he⟩ | ⟨links, segs, hup, hleads⟩
  · simp [hnew.missing] at he
  · exact ⟨segs, hup, hleads.aims hlinks⟩

/-- Where a path leads it would have led from the start. -/
theorem aimsAt_of_follow (h : GrowsInReach t top u) (hroot : u.follow true p = .ok root) :
    t.AimsAt p root := by
  obtain ⟨-, hleads⟩ := follow_eq_ok_iff.1 hroot
  rw [h.within.current] at hleads
  exact hleads.aims h.link_iff

theorem entryAt_eq (h : GrowsInReach t top u)
    (hout : ∀ root, t.AimsAt p root → t.OutOfReach top root) (hroot : u.follow true p = .ok root)
    (hle : root <+: loc) : u.entryAt loc = t.entryAt loc :=
  (h.entry loc).resolve_right fun hreach =>
    hout root (h.aimsAt_of_follow hroot) loc hreach hle

theorem walk_eq {found : List Found} (h : GrowsInReach t top u) (h' : GrowsInReach t top u')
    (hgrows : Grows u P u') (hout : ∀ root, t.AimsAt p root → t.OutOfReach top root)
    (hwalk : u.walk p = .ok found) : u'.walk p = .ok found := by
  obtain ⟨root, e, hroot, he⟩ := exists_root_of_walk hwalk
  have hroot' := hgrows.follow hroot he
  have hsame : ∀ loc, root <+: loc → u'.entryAt loc = u.entryAt loc := fun loc hle =>
    (h'.entryAt_eq hout hroot' hle).trans (h.entryAt_eq hout hroot hle).symm
  have hbelow : u'.below root = u.below root :=
    below_eq_of_agree hgrows.sorted h.sorted fun l hle _ => hsame l hle
  rw [walk_of_follow hroot' ((hsame root (List.prefix_refl _)).trans he), hbelow]
  exact (walk_of_follow hroot he).symm.trans hwalk

end GrowsInReach

end DocSite.FileTree
