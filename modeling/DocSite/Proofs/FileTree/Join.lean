import DocSite.Proofs.FileTree.Follow

namespace DocSite.FileTree

variable {t : FileTree} {last : Bool} {links : Nat} {loc l m : Location}
variable {segs rest : List String} {p q : Path}

theorem Leads.append (h : Leads t true links loc segs m)
    (hdir : t.isDirAt m = true) (hrest : rest ≠ [])
    (hl : ∀ links, Leads t last links m rest l) : Leads t last links loc (segs ++ rest) l := by
  induction h with
  | arrived => exact hl _
  | here hd hseg _ ih => exact .here hd hseg (ih hdir hl)
  | up hd _ ih => exact .up hd (ih hdir hl)
  | missing _ _ hentry => simp [isDirAt, hentry] at hdir
  | atLink _ _ _ hlast => simp at hlast
  | through hd hseg hentry _ htarget _ ih =>
    refine .through hd hseg hentry (fun h => ?_) htarget ?_
    · exact absurd (List.append_eq_nil_iff.1 h).2 hrest
    · simpa using ih hdir hl
  | child hd hseg hentry he _ ih => exact .child hd hseg hentry he (ih hdir hl)

/-- An empty segment in the middle of a path makes no difference. -/
theorem Leads.skip_empty (h : Leads t last links loc (segs ++ "" :: rest) l) (hrest : rest ≠ []) :
    Leads t last links loc (segs ++ rest) l := by
  -- the induction is on the way, so the empty segment is either here or further on
  generalize hall : segs ++ "" :: rest = all at h
  induction h generalizing segs with
  | arrived => simp at hall
  | here hdir hseg h ih =>
    rcases List.append_eq_cons_iff.1 hall with ⟨rfl, hcons⟩ | ⟨tail, rfl, rfl⟩
    · exact (List.cons.inj hcons).2 ▸ h
    · exact .here hdir hseg (ih rfl)
  | up hdir _ ih =>
    rcases List.append_eq_cons_iff.1 hall with ⟨rfl, hcons⟩ | ⟨tail, rfl, rfl⟩
    · simp at hcons
    · exact .up hdir (ih rfl)
  | missing hdir hseg hentry =>
    rcases List.append_eq_cons_iff.1 hall with ⟨rfl, hcons⟩ | ⟨tail, rfl, htail⟩
    · exact absurd (List.cons.inj hcons).1.symm hseg.1
    · simp at htail
  | atLink hdir hseg hentry hlast =>
    rcases List.append_eq_cons_iff.1 hall with ⟨rfl, hcons⟩ | ⟨tail, rfl, htail⟩
    · exact absurd (List.cons.inj hcons).1.symm hseg.1
    · simp at htail
  | through hdir hseg hentry hlast htarget h ih =>
    rcases List.append_eq_cons_iff.1 hall with ⟨rfl, hcons⟩ | ⟨tail, rfl, rfl⟩
    · exact absurd (List.cons.inj hcons).1.symm hseg.1
    · refine .through hdir hseg hentry (fun h => ?_) htarget ?_
      · exact absurd (List.append_eq_nil_iff.1 h).2 hrest
      · rw [List.append_eq, ← List.append_assoc]
        exact ih (List.append_assoc ..)
  | child hdir hseg hentry he h ih =>
    rcases List.append_eq_cons_iff.1 hall with ⟨rfl, hcons⟩ | ⟨tail, rfl, rfl⟩
    · exact absurd (List.cons.inj hcons).1.symm hseg.1
    · exact .child hdir hseg hentry he (ih rfl)

/-- A relative path below a directory is followed from where the path of the directory leads. -/
theorem follow_join (h : t.follow true p = .ok m) (hdir : t.isDirAt m = true)
    (hq : q.isAbsolute = false) (hl : ∀ links, Leads t last links m q.segments l) :
    t.follow last (p.join q) = .ok l := by
  obtain ⟨hp, h⟩ := follow_eq_ok_iff.1 h
  refine follow_eq_ok_iff.2 ⟨Path.join_ne_empty hp hq, ?_⟩
  rw [Path.isAbsolute_join hp hq]
  have happend := h.append hdir (Path.segments_ne_nil q) hl
  rcases Path.segments_join hp hq with hsegs | ⟨segs, hpsegs, hsegs⟩
  · rwa [hsegs]
  · rw [hpsegs, List.append_assoc] at happend
    rw [hsegs]
    exact happend.skip_empty (Path.segments_ne_nil q)

theorem Leads.drop (h : Leads t true links loc segs m) (hrest : rest ≠ [])
    (hall : Leads t last links loc (segs ++ rest) l) : ∃ links, Leads t last links m rest l := by
  -- each step on the first part is the only one that the whole path can take there
  induction h with
  | arrived => exact ⟨_, hall⟩
  | here hdir hseg _ ih =>
    refine ih (leads_of_followFrom _ _ _ ?_)
    simpa [followFrom_cons, hdir, hseg] using followFrom_of_leads hall
  | up hdir _ ih =>
    refine ih (leads_of_followFrom _ _ _ ?_)
    simpa [followFrom_cons, hdir] using followFrom_of_leads hall
  | missing hdir hseg hentry =>
    have hgo := followFrom_of_leads hall
    simp [followFrom_cons, hdir, hseg.1, hseg.2.1, hseg.2.2, hentry, hrest] at hgo
  | atLink _ _ _ hlast => simp at hlast
  | through hdir hseg hentry _ htarget _ ih =>
    refine ih (leads_of_followFrom _ _ _ ?_)
    simpa [followFrom_cons, hdir, hseg.1, hseg.2.1, hseg.2.2, hentry, hrest, htarget]
      using followFrom_of_leads hall
  | @child _ _ _ _ _ e hdir hseg hentry he _ ih =>
    refine ih (leads_of_followFrom _ _ _ ?_)
    have hgo := followFrom_of_leads hall
    cases e with
    | link target => exact absurd rfl (he target)
    | dir => simpa [followFrom_cons, hdir, hseg.1, hseg.2.1, hseg.2.2, hentry] using hgo
    | file bytes => simpa [followFrom_cons, hdir, hseg.1, hseg.2.1, hseg.2.2, hentry] using hgo

/-- An empty segment at the end of a path only asks for a directory. -/
theorem Leads.of_append_empty (h : Leads t true links loc (segs ++ [""]) l) :
    Leads t true links loc segs l ∧ t.isDirAt l = true := by
  generalize hall : segs ++ [""] = all at h
  induction h generalizing segs with
  | arrived => simp at hall
  | here hdir hseg h ih =>
    rcases List.append_eq_cons_iff.1 hall with ⟨rfl, hcons⟩ | ⟨tail, rfl, rfl⟩
    · obtain rfl := (List.cons.inj hcons).2
      obtain rfl := h.unique .arrived
      exact ⟨.arrived, hdir⟩
    · exact (ih rfl).imp_left (.here hdir hseg)
  | up hdir _ ih =>
    rcases List.append_eq_cons_iff.1 hall with ⟨rfl, hcons⟩ | ⟨tail, rfl, rfl⟩
    · simp at hcons
    · exact (ih rfl).imp_left (.up hdir)
  | missing hdir hseg hentry =>
    rcases List.append_eq_cons_iff.1 hall with ⟨rfl, hcons⟩ | ⟨tail, rfl, htail⟩
    · exact absurd (List.cons.inj hcons).1.symm hseg.1
    · simp at htail
  | atLink _ _ _ hlast => simp at hlast
  | through hdir hseg hentry hlast htarget h ih =>
    rcases List.append_eq_cons_iff.1 hall with ⟨rfl, hcons⟩ | ⟨tail, rfl, rfl⟩
    · exact absurd (List.cons.inj hcons).1.symm hseg.1
    · exact (ih (List.append_assoc ..)).imp_left (.through hdir hseg hentry (fun _ => rfl) htarget)
  | child hdir hseg hentry he _ ih =>
    rcases List.append_eq_cons_iff.1 hall with ⟨rfl, hcons⟩ | ⟨tail, rfl, rfl⟩
    · exact absurd (List.cons.inj hcons).1.symm hseg.1
    · exact (ih rfl).imp_left (.child hdir hseg hentry he)

/-- Where a joined path leads, its second part leads from the end of the first. -/
theorem leads_of_follow_join (h : t.follow true p = .ok m) (hq : q.isAbsolute = false)
    (hall : t.follow last (p.join q) = .ok l) : ∃ links, Leads t last links m q.segments l := by
  obtain ⟨hp, h⟩ := follow_eq_ok_iff.1 h
  obtain ⟨-, hall⟩ := follow_eq_ok_iff.1 hall
  rw [Path.isAbsolute_join hp hq] at hall
  rcases Path.segments_join hp hq with hsegs | ⟨segs, hpsegs, hsegs⟩
  · rw [hsegs] at hall
    exact h.drop (Path.segments_ne_nil q) hall
  · rw [hpsegs] at h
    rw [hsegs] at hall
    exact h.of_append_empty.1.drop (Path.segments_ne_nil q) hall

/-- On the way to where a path leads, its first part leads to a directory. -/
theorem Leads.exists_prefix (h : Leads t last links loc (segs ++ rest) l) (hrest : rest ≠ []) :
    ∃ m, Leads t true links loc segs m ∧ t.isDirAt m = true := by
  generalize hall : segs ++ rest = all at h
  induction h generalizing segs with
  | arrived => exact absurd (List.append_eq_nil_iff.1 hall).2 hrest
  | @here _ loc _ _ _ hdir hseg _ ih =>
    rcases List.append_eq_cons_iff.1 hall with ⟨rfl, -⟩ | ⟨tail, rfl, rfl⟩
    · exact ⟨loc, .arrived, hdir⟩
    · obtain ⟨m, hm, hmdir⟩ := ih rfl
      exact ⟨m, .here hdir hseg hm, hmdir⟩
  | @up _ loc _ _ hdir _ ih =>
    rcases List.append_eq_cons_iff.1 hall with ⟨rfl, -⟩ | ⟨tail, rfl, rfl⟩
    · exact ⟨loc, .arrived, hdir⟩
    · obtain ⟨m, hm, hmdir⟩ := ih rfl
      exact ⟨m, .up hdir hm, hmdir⟩
  | @missing _ loc _ hdir =>
    rcases List.append_eq_cons_iff.1 hall with ⟨rfl, -⟩ | ⟨tail, rfl, htail⟩
    · exact ⟨loc, .arrived, hdir⟩
    · exact absurd (List.append_eq_nil_iff.1 htail.symm).2 hrest
  | @atLink _ loc _ _ hdir =>
    rcases List.append_eq_cons_iff.1 hall with ⟨rfl, -⟩ | ⟨tail, rfl, htail⟩
    · exact ⟨loc, .arrived, hdir⟩
    · exact absurd (List.append_eq_nil_iff.1 htail.symm).2 hrest
  | @through _ loc _ _ _ _ hdir hseg hentry hlast htarget _ ih =>
    rcases List.append_eq_cons_iff.1 hall with ⟨rfl, -⟩ | ⟨tail, rfl, rfl⟩
    · exact ⟨loc, .arrived, hdir⟩
    · obtain ⟨m, hm, hmdir⟩ := ih (List.append_assoc ..)
      exact ⟨m, .through hdir hseg hentry (fun _ => rfl) htarget hm, hmdir⟩
  | @child _ loc _ _ _ _ hdir hseg hentry he _ ih =>
    rcases List.append_eq_cons_iff.1 hall with ⟨rfl, -⟩ | ⟨tail, rfl, rfl⟩
    · exact ⟨loc, .arrived, hdir⟩
    · obtain ⟨m, hm, hmdir⟩ := ih rfl
      exact ⟨m, .child hdir hseg hentry he hm, hmdir⟩

/-- In a tree without links it makes no difference how many may be passed. -/
theorem Leads.of_no_links (h : Leads t last links loc segs l)
    (hno : ∀ loc target, t.entryAt loc ≠ some (.link target)) (links' : Nat) :
    Leads t last links' loc segs l := by
  induction h with
  | arrived => exact .arrived
  | here hdir hseg _ ih => exact .here hdir hseg ih
  | up hdir _ ih => exact .up hdir ih
  | missing hdir hseg hentry => exact .missing hdir hseg hentry
  | atLink _ _ hentry => exact absurd hentry (hno _ _)
  | through _ _ hentry => exact absurd hentry (hno _ _)
  | child hdir hseg hentry he _ ih => exact .child hdir hseg hentry he ih

/-- Where a joined path leads anywhere, its first part leads to a directory. -/
theorem exists_follow_of_join (hp : p.text ≠ "") (hq : q.isAbsolute = false)
    (h : t.follow last (p.join q) = .ok l) :
    ∃ m, t.follow true p = .ok m ∧ t.isDirAt m = true := by
  obtain ⟨-, h⟩ := follow_eq_ok_iff.1 h
  rw [Path.isAbsolute_join hp hq] at h
  rcases Path.segments_join hp hq with hsegs | ⟨segs, hpsegs, hsegs⟩
  · rw [hsegs] at h
    obtain ⟨m, hm, hdir⟩ := h.exists_prefix (Path.segments_ne_nil q)
    exact ⟨m, follow_eq_ok_iff.2 ⟨hp, hm⟩, hdir⟩
  · rw [hsegs] at h
    obtain ⟨m, hm, hdir⟩ := h.exists_prefix (Path.segments_ne_nil q)
    refine ⟨m, follow_eq_ok_iff.2 ⟨hp, ?_⟩, hdir⟩
    rw [hpsegs]
    exact hm.append hdir (by simp) fun _ => .here hdir (.inl rfl) .arrived

/-- A link stands strictly below a location. -/
def LinkBelow (t : FileTree) (top : Location) : Prop :=
  ∃ loc target, top <+: loc ∧ loc ≠ top ∧ t.entryAt loc = some (.link target)

theorem not_linkBelow_of_entries {top : Location}
    (h : ∀ entry ∈ t.entries, ∀ target, entry.2 ≠ .link target) : ¬t.LinkBelow top := by
  rintro ⟨loc, target, -, -, hlink⟩
  have hne : loc ≠ [] := by
    rintro rfl
    simp at hlink
  exact h _ (mem_of_entryAt hne hlink) target rfl

/-- The names among segments without `..`. -/
def namesOf (segs : List String) : List String := segs.filter fun seg => seg ≠ "" ∧ seg ≠ "."

theorem namesOf_cons_of_here {seg : String} (h : seg = "" ∨ seg = ".") :
    namesOf (seg :: rest) = namesOf rest := by
  rcases h with rfl | rfl <;> simp [namesOf]

theorem namesOf_cons {seg : String} (h : IsStep seg) :
    namesOf (seg :: rest) = seg :: namesOf rest := by
  simp [namesOf, h.1, h.2.1]

theorem namesOf_append : namesOf (segs ++ rest) = namesOf segs ++ namesOf rest :=
  List.filter_append ..

theorem LinkBelow.of_concat {top : Location} {seg : String} {target : Path} (hle : top <+: loc)
    (he : t.entryAt (loc ++ [seg]) = some (.link target)) : t.LinkBelow top := by
  refine ⟨_, target, hle.trans (List.prefix_append _ _), fun heq => ?_, he⟩
  have hlen := hle.length_le
  rw [← heq, List.length_append, List.length_singleton] at hlen
  omega

/-- Without `..` and without links on the way, segments lead where their names say. -/
theorem Leads.eq_append_namesOf {top : Location} (h : Leads t last links loc segs l)
    (hup : ".." ∉ segs) (hle : top <+: loc) (hlinks : ¬t.LinkBelow top) :
    l = loc ++ namesOf segs := by
  induction h with
  | arrived => simp [namesOf]
  | here _ hseg _ ih =>
    rw [namesOf_cons_of_here hseg]
    exact ih (fun h => hup (.tail _ h)) hle
  | up => exact absurd (.head _) hup
  | missing _ hseg | atLink _ hseg => rw [namesOf_cons hseg]; simp [namesOf]
  | through _ _ hentry => exact absurd (.of_concat hle hentry) hlinks
  | child _ hseg _ _ _ ih =>
    rw [namesOf_cons hseg, ih (fun h => hup (.tail _ h)) (hle.trans (List.prefix_append _ _)),
      List.append_assoc, List.singleton_append]

theorem eq_append_namesOf_of_follow_join {top : Location} (htop : t.follow true p = .ok top)
    (hq : q.isAbsolute = false) (hup : ".." ∉ q.segments) (hlinks : ¬t.LinkBelow top)
    (h : t.follow last (p.join q) = .ok l) : l = top ++ namesOf q.segments := by
  -- only the way below the target matters, so links above it do no harm
  obtain ⟨links, h⟩ := leads_of_follow_join htop hq h
  exact h.eq_append_namesOf hup (List.prefix_refl _) hlinks

theorem prefix_of_follow_join {top : Location} (htop : t.follow true p = .ok top)
    (hq : q.isAbsolute = false) (hup : ".." ∉ q.segments) (hlinks : ¬t.LinkBelow top)
    (h : t.follow last (p.join q) = .ok l) : top <+: l := by
  rw [eq_append_namesOf_of_follow_join htop hq hup hlinks h]
  exact List.prefix_append _ _

/-- Where a directory stands, the segments with its names lead to it. -/
theorem leads_of_isDirAt (hw : t.WellFormed) (hup : ".." ∉ segs)
    (hdir : t.isDirAt (loc ++ namesOf segs) = true) (links : Nat) :
    Leads t last links loc segs (loc ++ namesOf segs) := by
  induction segs generalizing loc with
  | nil =>
    simp only [namesOf, List.filter_nil, List.append_nil]
    exact .arrived
  | cons seg rest ih =>
    have hrest : ".." ∉ rest := fun h => hup (.tail _ h)
    have hloc := hw.isDirAt_left hdir
    by_cases hhere : seg = "" ∨ seg = "."
    · rw [namesOf_cons_of_here hhere] at hdir ⊢
      exact .here hloc hhere (ih hrest hdir)
    · have hseg : IsStep seg :=
        ⟨fun h => hhere (.inl h), fun h => hhere (.inr h), fun h => hup (h ▸ .head _)⟩
      have hassoc : loc ++ seg :: namesOf rest = (loc ++ [seg]) ++ namesOf rest := by simp
      rw [namesOf_cons hseg, hassoc] at hdir ⊢
      have hchild := isDirAt_iff.1 (hw.isDirAt_left hdir)
      exact .child hloc hseg hchild (by simp) (ih hrest hdir)

/-- A path without `..` and links still leads to what is left in a smaller tree. -/
theorem Leads.of_within {t' : FileTree} {top : Location} {e : Entry}
    (h : Leads t last links loc segs l) (hup : ".." ∉ segs) (hle : top <+: loc)
    (hlinks : ¬t.LinkBelow top) (hw : t'.WellFormed) (hsub : Within t' t)
    (he : t'.entryAt l = some e) (last' : Bool) (links' : Nat) :
    Leads t' last' links' loc segs l := by
  -- on the way to `l` there are directories, and at `l` what was there before
  have hdir : ∀ {loc segs}, t.isDirAt loc = true → l = loc ++ namesOf segs →
      t'.isDirAt loc = true := by
    intro loc segs hdir hl
    by_cases hne : namesOf segs = []
    · rw [hne, List.append_nil] at hl
      exact hsub.isDirAt_of_entryAt (hl ▸ he) hdir
    · exact hw.isDirAt_of_append hne (hl ▸ he)
  induction h with
  | arrived => exact .arrived
  | here hd hseg h ih =>
    have hrest := fun h => hup (.tail _ h)
    exact .here (hdir hd (h.eq_append_namesOf hrest hle hlinks)) hseg (ih hrest hle he hdir)
  | up => exact absurd (.head _) hup
  | missing _ _ hentry =>
    obtain ⟨f, hf, -⟩ := hsub.entry _ _ he
    simp [hf] at hentry
  | atLink _ _ hentry => exact absurd (.of_concat hle hentry) hlinks
  | through _ _ hentry => exact absurd (.of_concat hle hentry) hlinks
  | @child _ loc seg rest l f hd hseg hentry hf h ih =>
    have hrest := fun h => hup (.tail _ h)
    have hle' : top <+: loc ++ [seg] := hle.trans (List.prefix_append _ _)
    have hl := h.eq_append_namesOf hrest hle' hlinks
    have hl' : l = loc ++ namesOf (seg :: rest) := by
      rw [namesOf_cons hseg, hl, List.append_assoc, List.singleton_append]
    have hparent : t'.isDirAt loc = true := hdir hd hl'
    obtain ⟨f', hchild⟩ : ∃ f', t'.entryAt (loc ++ [seg]) = some f' := by
      by_cases hne : namesOf rest = []
      · rw [hne, List.append_nil] at hl
        exact ⟨e, hl ▸ he⟩
      · exact ⟨.dir, isDirAt_iff.1 (hw.isDirAt_of_append hne (hl ▸ he))⟩
    obtain ⟨g, hg, halike⟩ := hsub.entry _ _ hchild
    rw [hentry] at hg
    obtain rfl := Option.some.inj hg
    refine .child hparent hseg hchild (fun target hlink => ?_) (ih hrest hle' he hdir)
    subst hlink
    cases f with
    | link target' => exact hf target' rfl
    | dir | file => simp [Entry.Alike] at halike

end DocSite.FileTree
