import DocSite.FileTree.Follow
import DocSite.Proofs.Except
import DocSite.Proofs.FileTree.Entries
import DocSite.Proofs.Path

namespace DocSite

/-- Two entries that a path passes alike: both directories, both files or the same link. -/
def Entry.Alike : Entry → Entry → Prop
  | .dir, .dir => True
  | .file _, .file _ => True
  | .link p, .link q => p = q
  | _, _ => False

theorem Entry.Alike.refl (e : Entry) : e.Alike e := by cases e <;> simp [Entry.Alike]

theorem Entry.Alike.trans {e e' e'' : Entry} (h : e.Alike e') (h' : e'.Alike e'') :
    e.Alike e'' := by
  cases e <;> cases e' <;> cases e'' <;> simp_all [Entry.Alike]

namespace FileTree

/-- Whether a segment names an entry of the directory it is followed from. -/
def IsStep (seg : String) : Prop := seg ≠ "" ∧ seg ≠ "." ∧ seg ≠ ".."

theorem isStep_of_isName {s : String} (h : IsName s) : IsStep s := ⟨h.1, h.2.1, h.2.2.1⟩

/-- Following segments from a location through at most so many links leads to a location. -/
inductive Leads (t : FileTree) (last : Bool) : Nat → Location → List String → Location → Prop
  | arrived {links loc} : Leads t last links loc [] loc
  | here {links loc seg rest l} (hdir : t.isDirAt loc = true) (hseg : seg = "" ∨ seg = ".")
      (h : Leads t last links loc rest l) : Leads t last links loc (seg :: rest) l
  | up {links loc rest l} (hdir : t.isDirAt loc = true)
      (h : Leads t last links loc.dropLast rest l) : Leads t last links loc (".." :: rest) l
  | missing {links loc seg} (hdir : t.isDirAt loc = true) (hseg : IsStep seg)
      (hentry : t.entryAt (loc ++ [seg]) = none) : Leads t last links loc [seg] (loc ++ [seg])
  | atLink {links loc seg target} (hdir : t.isDirAt loc = true) (hseg : IsStep seg)
      (hentry : t.entryAt (loc ++ [seg]) = some (.link target)) (hlast : last = false) :
      Leads t last links loc [seg] (loc ++ [seg])
  | through {links loc seg rest l target} (hdir : t.isDirAt loc = true) (hseg : IsStep seg)
      (hentry : t.entryAt (loc ++ [seg]) = some (.link target)) (hlast : rest = [] → last = true)
      (htarget : target.text ≠ "")
      (h : Leads t last links (if target.isAbsolute then [] else loc) (target.segments ++ rest) l) :
      Leads t last (links + 1) loc (seg :: rest) l
  | child {links loc seg rest l e} (hdir : t.isDirAt loc = true) (hseg : IsStep seg)
      (hentry : t.entryAt (loc ++ [seg]) = some e) (he : ∀ target, e ≠ .link target)
      (h : Leads t last links (loc ++ [seg]) rest l) : Leads t last links loc (seg :: rest) l

variable {t t' : FileTree} {last : Bool} {links : Nat} {loc l : Location} {e : Entry}
variable {seg : String} {segs rest : List String} {p q : Path}

theorem followFrom_nil : t.followFrom last links loc [] = .ok loc := by
  cases links <;> rfl

theorem followFrom_cons : t.followFrom last links loc (seg :: rest) =
    if !t.isDirAt loc then .error .notDirectory
    else if seg = "" ∨ seg = "." then t.followFrom last links loc rest
    else if seg = ".." then t.followFrom last links loc.dropLast rest
    else match t.entryAt (loc ++ [seg]) with
      | none => if rest = [] then .ok (loc ++ [seg]) else .error .notFound
      | some (.link target) =>
        if rest = [] ∧ !last then .ok (loc ++ [seg])
        else match links with
          | 0 => .error .tooManyLinks
          | links + 1 =>
            if target.text = "" then .error .notFound
            else t.followFrom last links (if target.isAbsolute then [] else loc)
              (target.segments ++ rest)
      | some _ => t.followFrom last links (loc ++ [seg]) rest := by
  cases links <;> rfl

theorem leads_of_followFrom (links : Nat) (loc : Location) (segs : List String)
    (h : t.followFrom last links loc segs = .ok l) : Leads t last links loc segs l := by
  -- as the function does, this recurses on the links left first: a link may add segments
  match segs with
  | [] =>
    obtain rfl := eq_of_eq_ok followFrom_nil h
    exact .arrived
  | seg :: rest =>
    rw [followFrom_cons] at h
    by_cases hdir : t.isDirAt loc = true
    case neg => simp [hdir] at h
    by_cases hhere : seg = "" ∨ seg = "."
    case pos =>
      rw [if_neg (by simpa using hdir), if_pos hhere] at h
      exact .here hdir hhere (leads_of_followFrom links loc rest h)
    by_cases hup : seg = ".."
    case pos =>
      subst hup
      rw [if_neg (by simpa using hdir), if_neg hhere, if_pos rfl] at h
      exact .up hdir (leads_of_followFrom links loc.dropLast rest h)
    rw [if_neg (by simpa using hdir), if_neg hhere, if_neg hup] at h
    have hseg : IsStep seg := ⟨fun h => hhere (.inl h), fun h => hhere (.inr h), hup⟩
    split at h
    case h_1 hentry =>
      split at h
      case isTrue hrest =>
        obtain rfl := Except.ok.inj h
        subst hrest
        exact .missing hdir hseg hentry
      case isFalse => simp at h
    case h_2 target hentry =>
      split at h
      case isTrue hstop =>
        obtain rfl := Except.ok.inj h
        obtain ⟨rfl, hlast⟩ := hstop
        exact .atLink hdir hseg hentry (by simpa using hlast)
      case isFalse hgo =>
        cases links with
        | zero => simp at h
        | succ links =>
          by_cases htarget : target.text = ""
          case pos => simp [htarget] at h
          case neg =>
            simp only [htarget, if_false] at h
            exact .through hdir hseg hentry (by simpa using hgo) htarget
              (leads_of_followFrom links _ _ h)
    case h_3 e he hentry =>
      exact .child hdir hseg hentry he (leads_of_followFrom links _ rest h)
termination_by (links, segs.length)

theorem followFrom_of_leads (h : Leads t last links loc segs l) :
    t.followFrom last links loc segs = .ok l := by
  induction h with
  | arrived => exact followFrom_nil
  | here hdir hseg _ ih => rw [followFrom_cons, if_neg (by simpa using hdir), if_pos hseg, ih]
  | up hdir _ ih =>
    rw [followFrom_cons, if_neg (by simpa using hdir), if_neg (by simp), if_pos rfl, ih]
  | missing hdir hseg hentry =>
    simp [followFrom_cons, hdir, hseg.1, hseg.2.1, hseg.2.2, hentry]
  | atLink hdir hseg hentry hlast =>
    simp [followFrom_cons, hdir, hseg.1, hseg.2.1, hseg.2.2, hentry, hlast]
  | through hdir hseg hentry hlast htarget _ ih =>
    rename_i rest _ _ _
    have hgo : ¬(rest = [] ∧ last = false) := fun h => by simp [hlast h.1] at h
    simp [followFrom_cons, hdir, hseg.1, hseg.2.1, hseg.2.2, hentry, hgo, htarget, ih]
  | child hdir hseg hentry he _ ih =>
    rename_i e _
    cases e with
    | link target => exact absurd rfl (he target)
    | dir => simp [followFrom_cons, hdir, hseg.1, hseg.2.1, hseg.2.2, hentry, ih]
    | file bytes => simp [followFrom_cons, hdir, hseg.1, hseg.2.1, hseg.2.2, hentry, ih]

theorem followFrom_eq_ok_iff :
    t.followFrom last links loc segs = .ok l ↔ Leads t last links loc segs l :=
  ⟨leads_of_followFrom links loc segs, followFrom_of_leads⟩

theorem Leads.unique {l' : Location} (h : Leads t last links loc segs l)
    (h' : Leads t last links loc segs l') : l = l' :=
  eq_of_eq_ok (followFrom_of_leads h) (followFrom_of_leads h')

theorem follow_eq_ok_iff : t.follow last p = .ok l ↔ p.text ≠ "" ∧
    Leads t last linkLimit (if p.isAbsolute then [] else t.current) p.segments l := by
  unfold follow
  split <;> simp_all [followFrom_eq_ok_iff]

/-- Every entry of the first tree stands in the second one as well, where paths pass it alike. -/
structure Within (t t' : FileTree) : Prop where
  current : t'.current = t.current
  entry : ∀ loc e, t.entryAt loc = some e → ∃ e', t'.entryAt loc = some e' ∧ e.Alike e'

theorem Within.refl (t : FileTree) : Within t t := ⟨rfl, fun _ e h => ⟨e, h, .refl e⟩⟩

theorem Within.trans {t'' : FileTree} (h : Within t t') (h' : Within t' t'') : Within t t'' where
  current := h'.current.trans h.current
  entry loc e he := by
    obtain ⟨e', he', halike⟩ := h.entry loc e he
    obtain ⟨e'', he'', halike'⟩ := h'.entry loc e' he'
    exact ⟨e'', he'', halike.trans halike'⟩

theorem Within.isDirAt (h : Within t t') (hdir : t.isDirAt loc = true) : t'.isDirAt loc = true := by
  obtain ⟨e', he', halike⟩ := h.entry _ _ (isDirAt_iff.1 hdir)
  cases e' <;> simp_all [Entry.Alike, isDirAt_iff]

/-- What stands where the second tree has a directory is a directory. -/
theorem Within.isDirAt_of_entryAt (h : Within t t') (he : t.entryAt loc = some e)
    (hdir : t'.isDirAt loc = true) : t.isDirAt loc = true := by
  obtain ⟨e', he', halike⟩ := h.entry _ _ he
  rw [isDirAt_iff.1 hdir] at he'
  obtain rfl := Option.some.inj he'
  cases e <;> simp_all [Entry.Alike, isDirAt_iff]

theorem Within.exists_file (h : Within t t') (he : t.entryAt loc = some e) {bytes : ByteArray}
    (hfile : t'.entryAt loc = some (.file bytes)) : ∃ old, t.entryAt loc = some (.file old) := by
  obtain ⟨e', he', halike⟩ := h.entry _ _ he
  rw [hfile] at he'
  obtain rfl := Option.some.inj he'
  cases e <;> simp_all [Entry.Alike]

/-- The last name may be missing in the first tree, so there must not be a link in the second. -/
theorem Leads.within (hw : Within t t') (h : Leads t last links loc segs l)
    (hlast : ∀ target, t'.entryAt l = some (.link target) → t.entryAt l ≠ none) :
    Leads t' last links loc segs l := by
  induction h with
  | arrived => exact .arrived
  | here hdir hseg _ ih => exact .here (hw.isDirAt hdir) hseg (ih hlast)
  | up hdir _ ih => exact .up (hw.isDirAt hdir) (ih hlast)
  | @missing _ loc seg hdir hseg hentry =>
    -- what is missing in the smaller tree may stand in the larger one, but not as a link
    cases hentry' : t'.entryAt (loc ++ [seg]) with
    | none => exact .missing (hw.isDirAt hdir) hseg hentry'
    | some e' =>
      refine .child (hw.isDirAt hdir) hseg hentry' (fun target he => ?_) .arrived
      exact hlast target (he ▸ hentry') hentry
  | atLink hdir hseg hentry hl =>
    obtain ⟨e', he', halike⟩ := hw.entry _ _ hentry
    cases e' <;> simp only [Entry.Alike] at halike
    exact .atLink (hw.isDirAt hdir) hseg he' hl
  | through hdir hseg hentry hl htarget _ ih =>
    obtain ⟨e', he', halike⟩ := hw.entry _ _ hentry
    cases e' <;> simp only [Entry.Alike] at halike
    subst halike
    exact .through (hw.isDirAt hdir) hseg he' hl htarget (ih hlast)
  | child hdir hseg hentry he _ ih =>
    obtain ⟨e', he', halike⟩ := hw.entry _ _ hentry
    refine .child (hw.isDirAt hdir) hseg he' (fun target ht => ?_) (ih hlast)
    subst ht
    rename_i e _
    cases e <;> simp only [Entry.Alike] at halike
    exact he _ rfl

theorem follow_within (hw : Within t t') (h : t.follow last p = .ok l)
    (hlast : ∀ target, t'.entryAt l = some (.link target) → t.entryAt l ≠ none) :
    t'.follow last p = .ok l := by
  obtain ⟨hp, h⟩ := follow_eq_ok_iff.1 h
  rw [← hw.current] at h
  exact follow_eq_ok_iff.2 ⟨hp, h.within hw hlast⟩

theorem follow_within_of_entryAt (hw : Within t t') (h : t.follow last p = .ok l)
    (hentry : t.entryAt l = some e) : t'.follow last p = .ok l :=
  follow_within hw h fun _ _ => by simp [hentry]

theorem Leads.isDirAt_of_ne_nil (h : Leads t last links loc segs l) (hsegs : segs ≠ []) :
    t.isDirAt loc = true := by
  cases h <;> first | assumption | exact absurd rfl hsegs

theorem Leads.of_lost_files (h : Leads t true links loc segs l) (hdir : t.isDirAt l = true)
    (hkept : ∀ loc e, t.entryAt loc = some e → (∀ bytes, e ≠ .file bytes) →
      t'.entryAt loc = some e) : Leads t' true links loc segs l := by
  have hdirs : ∀ {loc}, t.isDirAt loc = true → t'.isDirAt loc = true := fun h =>
    isDirAt_iff.2 (hkept _ _ (isDirAt_iff.1 h) (by simp))
  induction h with
  | arrived => exact .arrived
  | here hd hseg _ ih => exact .here (hdirs hd) hseg (ih hdir)
  | up hd _ ih => exact .up (hdirs hd) (ih hdir)
  | missing _ _ hentry => simp [isDirAt, hentry] at hdir
  | atLink _ _ _ hlast => simp at hlast
  | through hd hseg hentry hlast htarget _ ih =>
    exact .through (hdirs hd) hseg (hkept _ _ hentry (by simp)) hlast htarget (ih hdir)
  | @child _ loc seg rest l e hd hseg hentry he h ih =>
    -- on the way and at its end there are only directories
    have hchild : t.isDirAt (loc ++ [seg]) = true := by
      by_cases hrest : rest = []
      · subst hrest
        obtain rfl := h.unique .arrived
        exact hdir
      · exact h.isDirAt_of_ne_nil hrest
    exact .child (hdirs hd) hseg (isDirAt_iff.1 (hdirs hchild)) (by simp) (ih hdir)

/-- Where a path leads, if it leads anywhere, is decided by the links alone. -/
theorem Leads.unique_of_links (h : Leads t last links loc segs l) {l' : Location}
    (h' : Leads t' last links loc segs l')
    (hlinks : ∀ loc dest, t'.entryAt loc = some (.link dest) ↔ t.entryAt loc = some (.link dest)) :
    l = l' := by
  induction h generalizing l' with
  | arrived => exact (h'.unique .arrived).symm
  | here _ hseg _ ih =>
    cases h' with
    | here _ _ h' => exact ih h'
    | up => simp at hseg
    | missing _ hstep | atLink _ hstep | through _ hstep | child _ hstep =>
      exact absurd hseg (not_or.2 ⟨hstep.1, hstep.2.1⟩)
  | up _ _ ih =>
    cases h' with
    | here _ hseg => simp at hseg
    | up _ h' => exact ih h'
    | missing _ hstep | atLink _ hstep | through _ hstep | child _ hstep =>
      exact absurd rfl hstep.2.2
  | missing _ hstep hentry =>
    cases h' with
    | here _ hseg => exact absurd hseg (not_or.2 ⟨hstep.1, hstep.2.1⟩)
    | up => exact absurd rfl hstep.2.2
    | missing | atLink => rfl
    | through _ _ hlink => simp [(hlinks _ _).1 hlink] at hentry
    | child _ _ _ _ h' => exact (h'.unique .arrived).symm
  | atLink _ hstep hentry hlast =>
    cases h' with
    | here _ hseg => exact absurd hseg (not_or.2 ⟨hstep.1, hstep.2.1⟩)
    | up => exact absurd rfl hstep.2.2
    | missing | atLink => rfl
    | through _ _ _ hlast' => simp [hlast' rfl] at hlast
    | child _ _ _ _ h' => exact (h'.unique .arrived).symm
  | through _ hstep hentry hlast _ _ ih =>
    have hentry' := (hlinks _ _).2 hentry
    cases h' with
    | here _ hseg => exact absurd hseg (not_or.2 ⟨hstep.1, hstep.2.1⟩)
    | up => exact absurd rfl hstep.2.2
    | missing _ _ hnone => simp [hentry'] at hnone
    | atLink _ _ _ hlast' => simp [hlast rfl] at hlast'
    | through _ _ hlink _ _ h' =>
      rw [hentry'] at hlink
      obtain rfl := Entry.link.inj (Option.some.inj hlink)
      exact ih h'
    | child _ _ hfound hnot =>
      rw [hentry'] at hfound
      exact absurd (Option.some.inj hfound).symm (hnot _)
  | child _ hstep hentry hnot h ih =>
    cases h' with
    | here _ hseg => exact absurd hseg (not_or.2 ⟨hstep.1, hstep.2.1⟩)
    | up => exact absurd rfl hstep.2.2
    | missing | atLink => exact h.unique .arrived
    | through _ _ hlink =>
      rw [(hlinks _ _).1 hlink] at hentry
      exact absurd (Option.some.inj hentry).symm (hnot _)
    | child _ _ _ _ h' => exact ih h'

/-- Following the last link as well makes no difference where there is none. -/
theorem Leads.toLast (h : Leads t false links loc segs l)
    (hlink : ∀ target, t.entryAt l ≠ some (.link target)) : Leads t true links loc segs l := by
  induction h with
  | arrived => exact .arrived
  | here hdir hseg _ ih => exact .here hdir hseg (ih hlink)
  | up hdir _ ih => exact .up hdir (ih hlink)
  | missing hdir hseg hentry => exact .missing hdir hseg hentry
  | atLink hdir hseg hentry _ => exact absurd hentry (hlink _)
  | through hdir hseg hentry _ htarget _ ih =>
    exact .through hdir hseg hentry (fun _ => rfl) htarget (ih hlink)
  | child hdir hseg hentry he _ ih => exact .child hdir hseg hentry he (ih hlink)

theorem follow_true_of_false (h : t.follow false p = .ok l)
    (hlink : ∀ target, t.entryAt l ≠ some (.link target)) : t.follow true p = .ok l := by
  obtain ⟨hp, h⟩ := follow_eq_ok_iff.1 h
  exact follow_eq_ok_iff.2 ⟨hp, h.toLast hlink⟩

/-- A path that is followed through its last link does not end in a link. -/
theorem Leads.entryAt_ne_link (hw : t.WellFormed) (h : Leads t true links loc segs l)
    (hdir : t.isDirAt loc = true) (target : Path) : t.entryAt l ≠ some (.link target) := by
  induction h with
  | arrived => simp [isDirAt_iff.1 hdir]
  | here _ _ _ ih => exact ih hdir
  | up _ _ ih => exact ih (hw.isDirAt_dropLast (isDirAt_iff.1 hdir))
  | missing _ _ hentry => simp [hentry]
  | atLink _ _ _ hlast => simp at hlast
  | through _ _ _ _ _ _ ih =>
    apply ih
    split
    · rfl
    · exact hdir
  | @child _ _ _ rest _ e _ _ hentry he h ih =>
    -- the entry is the last one, or a directory since the way goes on
    by_cases hrest : rest = []
    · subst hrest
      obtain rfl := h.unique .arrived
      rw [hentry]
      exact fun heq => he target (Option.some.inj heq)
    · exact ih (h.isDirAt_of_ne_nil hrest)

theorem follow_ne_link (hw : t.WellFormed) (h : t.follow true p = .ok l) (target : Path) :
    t.entryAt l ≠ some (.link target) := by
  obtain ⟨-, h⟩ := follow_eq_ok_iff.1 h
  exact h.entryAt_ne_link hw (h.isDirAt_of_ne_nil (Path.segments_ne_nil p)) target

/-- A missing name is looked for in a directory, and it is a name that could stand there. -/
theorem Leads.parent_of_missing (hw : t.WellFormed) (h : Leads t last links loc segs l)
    (hsegs : ∀ seg ∈ segs, '/' ∉ seg.toList) (hdir : t.isDirAt loc = true)
    (hl : t.entryAt l = none) : t.isDirAt l.dropLast = true ∧ ∀ name ∈ l, IsName name := by
  induction h with
  | arrived => simp [isDirAt_iff.1 hdir] at hl
  | here _ _ _ ih => exact ih (fun seg h => hsegs seg (.tail _ h)) hdir hl
  | up _ _ ih =>
    exact ih (fun seg h => hsegs seg (.tail _ h)) (hw.isDirAt_dropLast (isDirAt_iff.1 hdir)) hl
  | @missing _ loc seg _ hseg _ =>
    refine ⟨by simpa using hdir, fun name hname => ?_⟩
    rcases List.mem_append.1 hname with hname | hname
    · exact hw.isName (isDirAt_iff.1 hdir) hname
    · obtain rfl := List.mem_singleton.1 hname
      exact ⟨hseg.1, hseg.2.1, hseg.2.2, hsegs _ (.head _)⟩
  | atLink _ _ hentry _ => simp [hentry] at hl
  | through _ _ _ _ _ _ ih =>
    refine ih (fun seg h => ?_) ?_ hl
    · rcases List.mem_append.1 h with h | h
      · exact Path.no_separator_of_mem_segments h
      · exact hsegs seg (.tail _ h)
    · split
      · rfl
      · exact hdir
  | @child _ _ _ rest _ e _ _ hentry he h ih =>
    by_cases hrest : rest = []
    · subst hrest
      obtain rfl := h.unique .arrived
      simp [hentry] at hl
    · exact ih (fun seg h => hsegs seg (.tail _ h)) (h.isDirAt_of_ne_nil hrest) hl

theorem follow_parent_of_missing (hw : t.WellFormed) (h : t.follow last p = .ok l)
    (hl : t.entryAt l = none) : t.isDirAt l.dropLast = true ∧ ∀ name ∈ l, IsName name := by
  obtain ⟨-, h⟩ := follow_eq_ok_iff.1 h
  exact h.parent_of_missing hw (fun _ => Path.no_separator_of_mem_segments)
    (h.isDirAt_of_ne_nil (Path.segments_ne_nil p)) hl

end FileTree
end DocSite
