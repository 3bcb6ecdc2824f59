import DocSite.Proofs.FileTree.Walk
import DocSite.Site.Wipe

namespace DocSite.FileTree

variable {t t' t'' : FileTree} {P Q : Location → Prop} {loc l : Location} {e : Entry} {p : Path}

/-- The second tree is the first without some of the entries at which `P` holds. -/
structure Loses (t : FileTree) (P : Location → Prop) (t' : FileTree) : Prop where
  wellFormed : t'.WellFormed
  current : t'.current = t.current
  entry : ∀ loc, t'.entryAt loc = t.entryAt loc ∨ t'.entryAt loc = none ∧ P loc

namespace Loses

theorem refl (hw : t.WellFormed) : Loses t P t := ⟨hw, rfl, fun _ => .inl rfl⟩

theorem entryAt_eq (h : Loses t P t') (he : t'.entryAt loc = some e) : t.entryAt loc = some e := by
  rcases h.entry loc with heq | ⟨hnone, -⟩
  · rwa [← heq]
  · simp [hnone] at he

theorem within (h : Loses t P t') : Within t' t :=
  ⟨h.current.symm, fun _ e he => ⟨e, h.entryAt_eq he, .refl e⟩⟩

theorem isDirAt (h : Loses t P t') (hdir : t'.isDirAt loc = true) : t.isDirAt loc = true :=
  h.within.isDirAt hdir

/-- A directory of which anything is left is still a directory. -/
theorem isDirAt_of_entryAt (h : Loses t P t') (hdir : t.isDirAt loc = true)
    (he : t'.entryAt loc = some e) : t'.isDirAt loc = true := by
  rw [isDirAt_iff, he, ← h.entryAt_eq he]
  exact isDirAt_iff.1 hdir

theorem follow {last : Bool} (h : Loses t P t') (hp : t'.follow last p = .ok loc)
    (he : t'.entryAt loc = some e) : t.follow last p = .ok loc :=
  follow_within_of_entryAt h.within hp he

theorem mono (h : Loses t P t') (hPQ : ∀ loc, P loc → Q loc) : Loses t Q t' :=
  ⟨h.wellFormed, h.current, fun loc => (h.entry loc).imp_right fun h => ⟨h.1, hPQ loc h.2⟩⟩

theorem trans (h : Loses t P t') (h' : Loses t' P t'') : Loses t P t'' where
  wellFormed := h'.wellFormed
  current := h'.current.trans h.current
  entry loc := by
    rcases h'.entry loc with heq | hnone
    · rw [heq]
      exact h.entry loc
    · exact .inr hnone

theorem entryAt_eq_none (h : Loses t P t') (hnone : t.entryAt loc = none) :
    t'.entryAt loc = none := by
  rcases h.entry loc with heq | hgone
  · rw [heq, hnone]
  · exact hgone.1

end Loses

theorem erase_nil (hw : t.WellFormed) : t.erase [] = t := by
  have hall : t.entries.filter (fun e => e.1 != []) = t.entries :=
    List.filter_eq_self.2 fun e he => by simpa using (hw.named e he).1
  simp [erase, hall]

theorem loses_erase (hw : t.WellFormed) (hleaf : t.below loc = []) :
    Loses t (· = loc) (t.erase loc) := by
  by_cases hloc : loc = []
  · subst hloc
    rw [erase_nil hw]
    exact .refl hw
  · refine ⟨hw.erase hloc hleaf, rfl, fun l => ?_⟩
    rw [entryAt_erase hloc]
    split
    · exact .inr ⟨rfl, ‹_›⟩
    · exact .inl rfl

theorem removeFile_eq_ok (h : t.removeFile p = .ok t') :
    ∃ loc e, t.follow false p = .ok loc ∧ t.entryAt loc = some e ∧ e ≠ .dir ∧
      t' = t.erase loc := by
  unfold removeFile at h
  obtain ⟨loc, hloc, h⟩ := bind_eq_ok.1 h
  split at h
  · simp at h
  · simp at h
  · rename_i e he hne
    exact ⟨loc, e, hloc, hne, he, (Except.ok.inj h).symm⟩

theorem exists_toList_eq (p : Path) : ∃ n, p.text.toList =
    (withoutSeparators p).text.toList ++ List.replicate n '/' := by
  obtain ⟨n, hn⟩ := Text.exists_eq_dropEndWhile_append '/' p.text.toList
  exact ⟨n, by simpa [withoutSeparators] using hn⟩

theorem Leads.append_empty {links : Nat} {segs : List String} (n : Nat)
    (h : Leads t true links loc segs l) (hdir : t.isDirAt l = true) :
    Leads t true links loc (segs ++ List.replicate n "") l := by
  have hstay : ∀ n links, Leads t true links l (List.replicate n "") l := by
    intro n links
    induction n with
    | zero => exact .arrived
    | succ n ih => exact .here hdir (.inl rfl) ih
  cases n with
  | zero => simpa using h
  | succ n => exact h.append hdir (by simp) (hstay (n + 1))

/-- The separators at the end of a path make no difference where it leads to a directory. -/
theorem follow_of_withoutSeparators (h : t.follow true (withoutSeparators p) = .ok loc)
    (hdir : t.isDirAt loc = true) : t.follow true p = .ok loc := by
  obtain ⟨n, hn⟩ := exists_toList_eq p
  obtain ⟨hne, h⟩ := follow_eq_ok_iff.1 h
  obtain ⟨c, cs, hcs⟩ := List.exists_cons_of_ne_nil
    (by simpa using hne : (withoutSeparators p).text.toList ≠ [])
  have hsegs : p.segments = (withoutSeparators p).segments ++ List.replicate n "" := by
    simp [Path.segments, hn, Text.splitAll_append_replicate]
  have habs : p.isAbsolute = (withoutSeparators p).isAbsolute := by
    simp [Path.isAbsolute, hn, hcs]
  refine follow_eq_ok_iff.2 ⟨fun hp => ?_, ?_⟩
  · simp [hp, hcs] at hn
  · rw [hsegs, habs]
    exact h.append_empty n hdir

/-- A path that does not end in a separator ends in a segment that is not empty. -/
theorem exists_last_segment (h : (withoutSeparators p).text ≠ "") : ∃ part, part ≠ [] ∧
    (Text.splitAll '/' (withoutSeparators p).text.toList).getLast? = some part := by
  have hend : Text.dropEndWhile (· == '/') p.text.toList ≠ [] := by
    simpa [withoutSeparators] using h
  obtain ⟨start, d, hstart, hd⟩ :=
    (Text.dropEndWhile_cases (· == '/') p.text.toList).resolve_left hend
  obtain ⟨part, hpart, hne⟩ := Text.getLast?_splitAll_concat start (by simpa using hd : d ≠ '/')
  exact ⟨part, hne, by simpa [withoutSeparators, hstart] using hpart⟩

/-- Without following its last link, a path that ends in a name does not lead to the root. -/
theorem Leads.ne_nil_of_step {links : Nat} {segs : List String} {seg : String}
    (h : Leads t false links loc (segs ++ [seg]) l) (hseg : IsStep seg) : l ≠ [] := by
  generalize hall : segs ++ [seg] = all at h
  induction h generalizing segs with
  | arrived => simp at hall
  | here _ hhere _ ih =>
    rcases List.append_eq_cons_iff.1 hall with ⟨rfl, hcons⟩ | ⟨tail, rfl, rfl⟩
    · obtain ⟨rfl, -⟩ := List.cons.inj hcons
      exact absurd hhere (not_or.2 ⟨hseg.1, hseg.2.1⟩)
    · exact ih rfl
  | up _ _ ih =>
    rcases List.append_eq_cons_iff.1 hall with ⟨rfl, hcons⟩ | ⟨tail, rfl, rfl⟩
    · exact absurd (List.cons.inj hcons).1 hseg.2.2
    · exact ih rfl
  | missing | atLink => simp
  | through _ _ _ hlast _ _ ih =>
    rcases List.append_eq_cons_iff.1 hall with ⟨rfl, hcons⟩ | ⟨tail, rfl, rfl⟩
    · exact absurd (hlast (List.cons.inj hcons).2.symm) (by simp)
    · exact ih (List.append_assoc ..)
  | child _ _ _ _ h ih =>
    rcases List.append_eq_cons_iff.1 hall with ⟨rfl, hcons⟩ | ⟨tail, rfl, rfl⟩
    · obtain ⟨-, rfl⟩ := List.cons.inj hcons
      obtain rfl := h.unique .arrived
      simp
    · exact ih rfl

theorem removeDir_eq_ok (h : t.removeDir p = .ok t') :
    ∃ loc, t.follow true p = .ok loc ∧ t.isDirAt loc = true ∧ t.below loc = [] ∧ loc ≠ [] ∧
      t' = t.erase loc := by
  unfold removeDir at h
  obtain ⟨loc, hloc, h⟩ := bind_eq_ok.1 h
  split at h
  · simp at h
  · simp at h
  rename_i hdot hup
  split at h
  · simp at h
  · rename_i hdir
    split at h
    · rename_i hempty
      have hlast := follow_true_of_false hloc (fun target => by simp [hdir])
      refine ⟨loc, follow_of_withoutSeparators hlast (isDirAt_iff.2 hdir), isDirAt_iff.2 hdir,
        by simpa using hempty, ?_, (Except.ok.inj h).symm⟩
      -- the path ends in a name, so it does not lead to the root
      obtain ⟨htext, hleads⟩ := follow_eq_ok_iff.1 hloc
      obtain ⟨part, hne, hpart⟩ := exists_last_segment htext
      obtain ⟨before, hbefore⟩ := List.getLast?_eq_some_iff.1 hpart
      rw [Path.segments, hbefore, List.map_append, List.map_singleton] at hleads
      refine hleads.ne_nil_of_step ⟨by simpa using hne, fun heq => hdot ?_, fun heq => hup ?_⟩
      · rw [hpart, ← String.toList_ofList (l := part), heq]
        rfl
      · rw [hpart, ← String.toList_ofList (l := part), heq]
        rfl
    · simp at h
  · simp at h

theorem tryRemoveFile_loses (hw : t.WellFormed) (x : Refusals) :
    Loses t (fun loc => t.follow false p = .ok loc ∧ ∃ e, t.entryAt loc = some e ∧ e ≠ .dir)
      (t.tryRemoveFile x p).1 := by
  unfold tryRemoveFile attempt
  split
  · exact .refl hw
  · split
    · rename_i t' h
      obtain ⟨loc, e, hloc, he, hdir, rfl⟩ := removeFile_eq_ok h
      exact (loses_erase hw (hw.below_eq_nil he hdir)).mono fun l hl => hl ▸ ⟨hloc, e, he, hdir⟩
    · exact .refl hw

theorem tryRemoveDir_loses (hw : t.WellFormed) (x : Refusals) :
    Loses t (fun loc => t.follow true p = .ok loc ∧ t.isDirAt loc = true)
      (t.tryRemoveDir x p).1 := by
  unfold tryRemoveDir attempt
  split
  · exact .refl hw
  · split
    · rename_i t' h
      obtain ⟨loc, hloc, hdir, hempty, -, rfl⟩ := removeDir_eq_ok h
      exact (loses_erase hw hempty).mono fun l hl => hl ▸ ⟨hloc, hdir⟩
    · exact .refl hw

theorem exists_gone_of_tryRemoveFile {x : Refusals}
    (h : (t.tryRemoveFile x p).2 = true) : ∃ loc e, t.follow false p = .ok loc ∧
      t.entryAt loc = some e ∧ (t.tryRemoveFile x p).1.entryAt loc = none := by
  unfold tryRemoveFile attempt at *
  split at h
  · simp at h
  · rename_i hx
    rw [if_neg hx]
    split at h
    · rename_i t' hok
      obtain ⟨loc, e, hloc, he, hdir, rfl⟩ := removeFile_eq_ok hok
      refine ⟨loc, e, hloc, he, ?_⟩
      have hne : loc ≠ [] := by
        rintro rfl
        exact hdir (Option.some.inj he).symm
      simp [entryAt_erase hne]
    · simp at h

/-- A directory other than the root is gone after its removal has succeeded. -/
theorem exists_gone_of_tryRemoveDir {x : Refusals} (h : (t.tryRemoveDir x p).2 = true) :
    ∃ loc, t.follow true p = .ok loc ∧ t.isDirAt loc = true ∧
      (loc ≠ [] → (t.tryRemoveDir x p).1.entryAt loc = none) := by
  unfold tryRemoveDir attempt at *
  split at h
  · simp at h
  · rename_i hx
    rw [if_neg hx]
    split at h
    · rename_i t' hok
      obtain ⟨loc, hloc, hdir, -, -, rfl⟩ := removeDir_eq_ok hok
      exact ⟨loc, hloc, hdir, fun hne => by simp [entryAt_erase hne]⟩
    · simp at h

theorem andThen_loses {a : Attempt} {next : FileTree → Attempt} (h : Loses t P a.1)
    (hnext : Loses a.1 P (next a.1).1) : Loses t P (a.andThen next).1 := by
  unfold Attempt.andThen
  split
  · exact h.trans hnext
  · exact h

theorem andThen_eq_of_true {a : Attempt} {next : FileTree → Attempt}
    (h : (a.andThen next).2 = true) : a.2 = true ∧ a.andThen next = next a.1 := by
  unfold Attempt.andThen at *
  split at h
  · simp_all
  · contradiction

section All

variable {α : Type} {step : FileTree → α → Attempt} {items : List α} {a : α}

theorem attemptAll_nil : t.attemptAll step [] = (t, true) := rfl

theorem attemptAll_cons :
    t.attemptAll step (a :: items) = (step t a).andThen fun t => t.attemptAll step items := by
  -- a failed attempt is carried through to the end
  have hfail : ∀ (items : List α) (b : Attempt), b.2 = false →
      items.foldl (fun a item => a.andThen fun t => step t item) b = b := by
    intro items b hb
    induction items with
    | nil => rfl
    | cons item items ih =>
      rw [List.foldl_cons]
      simp only [Attempt.andThen, hb, Bool.false_eq_true, if_false]
      exact ih
  unfold attemptAll
  rw [List.foldl_cons]
  simp only [Attempt.andThen, if_true]
  obtain ⟨t', b⟩ := step t a
  cases b with
  | true => rfl
  | false => exact hfail items (t', false) rfl

theorem attemptAll_append (more : List α) : t.attemptAll step (items ++ more) =
    (t.attemptAll step items).andThen fun t => t.attemptAll step more := by
  induction items generalizing t with
  | nil => rfl
  | cons a items ih =>
    rw [List.cons_append, attemptAll_cons, attemptAll_cons]
    unfold Attempt.andThen
    split
    · exact ih
    · simp_all

/-- If each step takes away only what may be taken away, so do all steps. -/
theorem attemptAll_loses (h : Loses t P t')
    (hstep : ∀ t', Loses t P t' → ∀ a ∈ items, Loses t' P (step t' a).1) :
    Loses t P (t'.attemptAll step items).1 := by
  induction items generalizing t' with
  | nil => exact h
  | cons a items ih =>
    have hfirst := h.trans (hstep t' h a (.head _))
    rw [attemptAll_cons]
    unfold Attempt.andThen
    split
    · exact ih hfirst fun t' h b hb => hstep t' h b (.tail _ hb)
    · exact hfirst

/-- An item has its turn in a tree if the items before it have all succeeded and left that tree. -/
def IsTurn (t : FileTree) (step : FileTree → α → Attempt) (items : List α) (a : α)
    (s : FileTree) : Prop :=
  ∃ before after, items = before ++ a :: after ∧ t.attemptAll step before = (s, true)

theorem IsTurn.mem {s : FileTree} (h : IsTurn t step items a s) : a ∈ items := by
  obtain ⟨before, after, rfl, -⟩ := h
  simp

theorem IsTurn.cons {s : FileTree} {b : α} (h : IsTurn (step t b).1 step items a s)
    (hb : (step t b).2 = true) : IsTurn t step (b :: items) a s := by
  obtain ⟨before, after, rfl, hs⟩ := h
  refine ⟨b :: before, after, rfl, ?_⟩
  rw [attemptAll_cons]
  simp only [Attempt.andThen, hb, if_true, hs]

theorem IsTurn.loses {s : FileTree} (hw : t.WellFormed)
    (hstep : ∀ t', Loses t P t' → ∀ a ∈ items, Loses t' P (step t' a).1)
    (h : IsTurn t step items a s) : Loses t P s := by
  obtain ⟨before, after, rfl, hs⟩ := h
  have hbefore := attemptAll_loses (.refl hw) fun t' h b hb =>
    hstep t' h b (List.mem_append_left _ hb)
  rwa [hs] at hbefore

theorem IsTurn.loses_after {s : FileTree} (hw : t.WellFormed)
    (hstep : ∀ t', Loses t P t' → ∀ a ∈ items, Loses t' P (step t' a).1)
    (h : IsTurn t step items a s) : Loses (step s a).1 P (t.attemptAll step items).1 := by
  have hs := h.loses hw hstep
  have ha := hstep s hs a h.mem
  obtain ⟨before, after, rfl, hbefore⟩ := h
  rw [attemptAll_append, hbefore]
  simp only [Attempt.andThen, if_true]
  rw [attemptAll_cons]
  refine andThen_loses (.refl ha.wellFormed) ?_
  exact attemptAll_loses (.refl ha.wellFormed) fun t' h b hb =>
    hstep t' ((hs.trans ha).trans h) b (by simp [hb])

/-- If all steps succeed, each item had its turn and succeeded then. -/
theorem exists_turn_of_true (hok : (t.attemptAll step items).2 = true) (ha : a ∈ items) :
    ∃ s, IsTurn t step items a s ∧ (step s a).2 = true := by
  induction items generalizing t with
  | nil => simp at ha
  | cons b items ih =>
    rw [attemptAll_cons] at hok
    obtain ⟨hb, heq⟩ := andThen_eq_of_true hok
    rw [heq] at hok
    rcases List.mem_cons.1 ha with rfl | ha
    · exact ⟨t, ⟨[], items, rfl, rfl⟩, hb⟩
    · obtain ⟨s, hs, hsok⟩ := ih hok ha
      exact ⟨s, hs.cons hb, hsok⟩

theorem exists_turn_of_gone (hw : t.WellFormed)
    (hstep : ∀ t', Loses t P t' → ∀ a ∈ items, Loses t' P (step t' a).1)
    (he : t.entryAt loc = some e) (hgone : (t.attemptAll step items).1.entryAt loc = none) :
    ∃ a s, IsTurn t step items a s ∧ s.entryAt loc = some e ∧ (step s a).1.entryAt loc = none := by
  induction items generalizing t with
  | nil => simp [attemptAll_nil, he] at hgone
  | cons b items ih =>
    have hb := hstep t (.refl hw) b (.head _)
    -- `loc` is kept by the first item and goes later, or goes at the turn of the first
    rcases hb.entry loc with hkept | ⟨hnow, -⟩
    · rw [attemptAll_cons, Attempt.andThen] at hgone
      split at hgone
      · rename_i hbok
        obtain ⟨a, s, hs, hse, hafter⟩ := ih hb.wellFormed
          (fun t' h c hc => hstep t' (hb.trans h) c (.tail _ hc)) (hkept.trans he) hgone
        exact ⟨a, s, hs.cons hbok, hse, hafter⟩
      · simp [hkept, he] at hgone
    · exact ⟨b, t, ⟨[], items, rfl, rfl⟩, he, hnow⟩

end All

variable {start : Path} {root : Location} {f : Found} {x : Refusals}

/-- The removal of what a walk found takes away just that, even if other entries are gone. -/
theorem removeFound_loses (hw : t.WellFormed) (hf : t.FoundIn start root f)
    (h : Loses t P t') : Loses t' (· = root ++ f.names) (removeFound x t' f).1 := by
  unfold removeFound
  split
  · rename_i hdir
    have hmine := hf.follow_path hw true (by simp [hdir])
    refine (tryRemoveDir_loses h.wellFormed x).mono fun loc ⟨hloc, hat⟩ => ?_
    exact eq_of_eq_ok (h.follow hloc (isDirAt_iff.1 hat)) hmine
  · have hmine := hf.follow_path hw false (by simp)
    refine (tryRemoveFile_loses h.wellFormed x).mono fun loc ⟨hloc, e, he, _⟩ => ?_
    exact eq_of_eq_ok (h.follow hloc he) hmine

theorem removeFound_gone (hw : t.WellFormed) (hf : t.FoundIn start root f) (h : Loses t P t')
    (hok : (removeFound x t' f).2 = true) :
    (removeFound x t' f).1.entryAt (root ++ f.names) = none := by
  unfold removeFound at *
  split at hok
  · rename_i hdir
    have hmine := hf.follow_path hw true (by simp [hdir])
    obtain ⟨loc, hloc, hat, hgone⟩ := exists_gone_of_tryRemoveDir hok
    obtain rfl := eq_of_eq_ok (h.follow hloc (isDirAt_iff.1 hat)) hmine
    exact hgone (by simp [hf.names_ne_nil])
  · have hmine := hf.follow_path hw false (by simp)
    obtain ⟨loc, e, hloc, he, hgone⟩ := exists_gone_of_tryRemoveFile hok
    obtain rfl := eq_of_eq_ok (h.follow hloc he) hmine
    exact hgone

/-- A location at or below the directory that a path leads to. -/
def InDir (t : FileTree) (p : Path) (loc : Location) : Prop :=
  ∃ root, t.follow true p = .ok root ∧ t.isDirAt root = true ∧ root <+: loc

theorem removeFound_loses_inDir {found : List Found} (hw : t.WellFormed)
    (hwalk : t.walk start = .ok found) (hf : f ∈ found) (h : Loses t P t') :
    Loses t' (InDir t start) (removeFound x t' f).1 := by
  obtain ⟨root, -, hroot, -⟩ := exists_root_of_walk hwalk
  have hf := (mem_walk_iff hw hwalk hroot).1 hf
  refine (removeFound_loses hw hf h).mono fun loc hloc => ?_
  exact ⟨root, hroot, hf.isDirAt_root hw, hloc ▸ List.prefix_append _ _⟩

/-- The removal of a directory takes away the directory and what is in it. -/
theorem removeAll_loses (hw : t.WellFormed) :
    Loses t (InDir t start) (t.removeAll start x).1 := by
  unfold removeAll
  split
  · exact .refl hw
  split
  · exact .refl hw
  · rename_i found hwalk
    have hfound : Loses t (InDir t start) (t.attemptAll (removeFound x) found.reverse).1 :=
      attemptAll_loses (.refl hw) fun t' h f hf =>
        removeFound_loses_inDir hw hwalk (List.mem_reverse.1 hf) h
    refine andThen_loses hfound ((tryRemoveDir_loses hfound.wellFormed x).mono ?_)
    intro loc ⟨hloc, hdir⟩
    exact ⟨loc, hfound.follow hloc (isDirAt_iff.1 hdir), hfound.isDirAt hdir, List.prefix_refl _⟩

/-- After the removal of a directory has succeeded, nothing is left of it. -/
theorem removeAll_gone (hw : t.WellFormed) (hok : (t.removeAll start x).2 = true)
    (hin : t.InDir start loc) (hne : loc ≠ []) :
    (t.removeAll start x).1.entryAt loc = none := by
  obtain ⟨root, hroot, -, names, rfl⟩ := hin
  unfold removeAll at *
  split at hok
  · simp at hok
  rename_i hx
  rw [if_neg hx]
  split at hok
  · simp at hok
  rename_i found hwalk
  obtain ⟨hall, heq⟩ := andThen_eq_of_true hok
  rw [heq] at hok ⊢
  have hstep : ∀ t', Loses t (InDir t start) t' → ∀ f ∈ found.reverse,
      Loses t' (InDir t start) (removeFound x t' f).1 := fun t' h f hf =>
    removeFound_loses_inDir hw hwalk (List.mem_reverse.1 hf) h
  have hfound := attemptAll_loses (.refl hw) hstep
  have hlast := tryRemoveDir_loses (p := start) hfound.wellFormed x
  by_cases hnames : names = []
  · -- the directory itself goes last
    obtain ⟨l, hl, hdir, hgone⟩ := exists_gone_of_tryRemoveDir hok
    obtain rfl := eq_of_eq_ok (hfound.follow hl (isDirAt_iff.1 hdir)) hroot
    subst hnames
    rw [List.append_nil] at hne ⊢
    exact hgone hne
  · -- all else was found on the walk, and removed when its turn came
    refine hlast.entryAt_eq_none ?_
    cases he : t.entryAt (root ++ names) with
    | none => exact hfound.entryAt_eq_none he
    | some e =>
      have hf : t.FoundIn start root ⟨names, Found.pathBelow start names, e⟩ :=
        ⟨hroot, hnames, rfl, he⟩
      have hmem := List.mem_reverse.2 ((mem_walk_iff hw hwalk hroot).2 hf)
      obtain ⟨s, hs, hsok⟩ := exists_turn_of_true hall hmem
      exact (hs.loses_after hw hstep).entryAt_eq_none
        (removeFound_gone hw hf (hs.loses hw hstep) hsok)

end DocSite.FileTree
