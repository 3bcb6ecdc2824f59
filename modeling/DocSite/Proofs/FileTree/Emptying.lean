import DocSite.Proofs.FileTree.Success

namespace DocSite.FileTree

variable {t t' : FileTree} {last : Bool} {loc l top root : Location} {e : Entry} {p q start : Path}

/-- What is in the directory at a location, and not the directory itself. -/
def StrictlyBelow (top loc : Location) : Prop := top <+: loc ∧ loc ≠ top

instance : Decidable (StrictlyBelow top loc) := inferInstanceAs (Decidable (_ ∧ _))

theorem StrictlyBelow.mono (h : top <+: root) (hloc : StrictlyBelow root loc) :
    StrictlyBelow top loc := by
  refine ⟨h.trans hloc.1, ?_⟩
  rintro rfl
  exact hloc.2 (h.eq_of_length_le hloc.1.length_le)

def clear (t : FileTree) (top : Location) : FileTree :=
  { t with entries := t.entries.filter fun e => ¬StrictlyBelow top e.1 }

theorem entryAt_clear : (t.clear top).entryAt loc =
    if StrictlyBelow top loc then none else t.entryAt loc := by
  unfold entryAt clear
  by_cases hloc : loc = []
  · subst hloc
    have hnot : ¬StrictlyBelow top [] := fun h => h.2 (List.prefix_nil.1 h.1).symm
    simp [hnot]
  · simp only [hloc, if_false, lookup_filter fun l => ¬StrictlyBelow top l]
    by_cases h : StrictlyBelow top loc <;> simp [h]

theorem entryAt_clear_eq_some_iff :
    (t.clear top).entryAt loc = some e ↔ t.entryAt loc = some e ∧ ¬StrictlyBelow top loc := by
  rw [entryAt_clear]
  split <;> simp_all

theorem clear_within : Within (t.clear top) t :=
  ⟨rfl, fun _ e he => ⟨e, (entryAt_clear_eq_some_iff.1 he).1, .refl e⟩⟩

/-- What stands elsewhere is not lost when entries strictly below a location are. -/
theorem Loses.clear_within (h : Loses t (StrictlyBelow top) t') :
    Within (t.clear top) (t'.clear top) := by
  refine ⟨h.current, fun loc e he => ⟨e, ?_, .refl e⟩⟩
  obtain ⟨he, hnot⟩ := entryAt_clear_eq_some_iff.1 he
  refine entryAt_clear_eq_some_iff.2 ⟨?_, hnot⟩
  rcases h.entry loc with heq | ⟨-, hbelow⟩
  · rw [heq, he]
  · exact absurd hbelow hnot

/-- A path leads to a directory without links below it, and does not pass below it on its way. -/
structure Rooted (t : FileTree) (p : Path) (top : Location) : Prop where
  follow_clear : (t.clear top).follow true p = .ok top
  isDir : t.isDirAt top = true
  no_links : ¬t.LinkBelow top

namespace Rooted

theorem follow (h : Rooted t p top) : t.follow true p = .ok top := by
  have he : (t.clear top).entryAt top = some .dir :=
    entryAt_clear_eq_some_iff.2 ⟨isDirAt_iff.1 h.isDir, fun hbelow => hbelow.2 rfl⟩
  exact follow_within_of_entryAt FileTree.clear_within h.follow_clear he

theorem loses (h : Rooted t p top) (ht : Loses t (StrictlyBelow top) t') : Rooted t' p top := by
  have he : (t.clear top).entryAt top = some .dir :=
    entryAt_clear_eq_some_iff.2 ⟨isDirAt_iff.1 h.isDir, fun hbelow => hbelow.2 rfl⟩
  refine ⟨follow_within_of_entryAt ht.clear_within h.follow_clear he, ?_, ?_⟩
  · rcases ht.entry top with heq | ⟨-, hbelow⟩
    · rw [isDirAt_iff, heq, ← isDirAt_iff]
      exact h.isDir
    · exact absurd rfl hbelow.2
  · rintro ⟨loc, dest, hle, hne, hlink⟩
    exact h.no_links ⟨loc, dest, hle, hne, ht.entryAt_eq hlink⟩

theorem eq_of_follow (h : Rooted t p top) (hq : q.isAbsolute = false) (hup : ".." ∉ q.segments)
    (hloc : t.follow last (p.join q) = .ok loc) : loc = top ++ namesOf q.segments :=
  eq_append_namesOf_of_follow_join h.follow hq hup h.no_links hloc

theorem follow_join (h : Rooted t p top) (hw : t.WellFormed) (hq : q.isAbsolute = false)
    (hup : ".." ∉ q.segments) (hdir : t.isDirAt (top ++ namesOf q.segments) = true) :
    t.follow last (p.join q) = .ok (top ++ namesOf q.segments) :=
  FileTree.follow_join h.follow h.isDir hq fun links => leads_of_isDirAt hw hup hdir links

end Rooted

theorem attemptAll_eq_true_iff {α : Type} {step : FileTree → α → Attempt} {items : List α} :
    (t.attemptAll step items).2 = true ↔
      ∀ a s, IsTurn t step items a s → (step s a).2 = true := by
  constructor
  · rintro hok a s ⟨before, after, rfl, hs⟩
    rw [attemptAll_append, hs] at hok
    simp only [Attempt.andThen, if_true] at hok
    rw [attemptAll_cons] at hok
    exact (andThen_eq_of_true hok).1
  · intro h
    induction items generalizing t with
    | nil => rfl
    | cons a items ih =>
      have ha := h a t ⟨[], items, rfl, rfl⟩
      rw [attemptAll_cons, Attempt.andThen, if_pos ha]
      exact ih fun b s hs => h b s (hs.cons ha)

theorem below_erase : (t.erase l).below root = (t.below root).filter fun g => g.1 != l := by
  simp [below, erase, List.filter_filter, Bool.and_comm]

theorem below_erase_last (hw : t.WellFormed) {first : List (Location × Entry)}
    (h : t.below root = first ++ [(l, e)]) : (t.erase l).below root = first := by
  have hordered : (first ++ [(l, e)]).Pairwise fun a b => ¬b.1 <+: a.1 := h ▸ hw.ordered.filter _
  have hfirst : first.filter (fun g => g.1 != l) = first := by
    refine List.filter_eq_self.2 fun g hg => ?_
    have hnot := (List.pairwise_append.1 hordered).2.2 g hg (l, e) (by simp)
    simpa using fun heq : g.1 = l => hnot (heq ▸ List.prefix_refl _)
  rw [below_erase, h, List.filter_append, hfirst]
  simp

/-- All that a walk finds can be removed, the contents of each directory before the directory. -/
theorem attemptAll_removeFound (hw : t.WellFormed)
    (hstart : ∀ t', Loses t (StrictlyBelow root) t' → t'.follow true start = .ok root) :
    ∃ t', Loses t (StrictlyBelow root) t' ∧ t'.below root = [] ∧
      t.attemptAll (removeFound {}) ((t.below root).map fun g =>
        ⟨g.1.drop root.length, Found.pathBelow start (g.1.drop root.length), g.2⟩).reverse =
        (t', true) := by
  -- what is removed first is what is listed last, so the induction is on the length of the list
  generalize hlen : (t.below root).length = n
  induction n generalizing t with
  | zero =>
    have hnil := List.length_eq_zero_iff.1 hlen
    exact ⟨t, .refl hw, hnil, by simp [hnil, attemptAll_nil]⟩
  | succ n ih =>
    have hne : t.below root ≠ [] := by
      intro hnil
      simp [hnil] at hlen
    obtain ⟨first, ⟨l, e⟩, hlast⟩ : ∃ first f, t.below root = first ++ [f] :=
      ⟨_, _, (List.dropLast_concat_getLast hne).symm⟩
    obtain ⟨he, ⟨names, rfl⟩, hneq⟩ :=
      hw.mem_below_iff.1 (by simp [hlast] : (l, e) ∈ t.below root)
    have hf : t.FoundIn start root ⟨names, Found.pathBelow start names, e⟩ :=
      ⟨hstart t (.refl hw), by simpa using hneq, rfl, he⟩
    have hempty := below_eq_nil_of_last hw hlast
    have herase : Loses t (StrictlyBelow root) (t.erase (root ++ names)) :=
      (loses_erase hw hempty).mono fun loc hloc => hloc ▸ ⟨List.prefix_append _ _, hneq⟩
    have hrest := below_erase_last hw hlast
    obtain ⟨t', ht', hnil, hall⟩ := ih herase.wellFormed
      (fun t' h => hstart t' (herase.trans h)) (by simpa [hrest, hlast] using hlen)
    refine ⟨t', herase.trans ht', hnil, ?_⟩
    rw [hrest] at hall
    rw [hlast, List.map_append, List.reverse_append, List.map_singleton, List.reverse_singleton,
      List.singleton_append, attemptAll_cons, List.drop_left,
      removeFound_of_below_eq_nil hw hf hempty]
    exact hall

theorem namesOf_replicate_empty (n : Nat) : namesOf (List.replicate n "") = [] := by
  simp [namesOf]

theorem endsInDot_of_namesOf_eq_nil (hq : q.isAbsolute = false) (hne : q.text ≠ "")
    (hnames : namesOf q.segments = []) : endsInDot q = true := by
  obtain ⟨hrest, hrel, n, hn⟩ := withoutSeparators_of_relative hq hne
  -- the last segment is not empty, and it is no name
  obtain ⟨part, hpne, hpart⟩ := exists_last_segment hrest
  have hlast : (withoutSeparators q).segments.getLast? = some (String.ofList part) := by
    simp [Path.segments, List.getLast?_map, hpart]
  have hmem : String.ofList part ∈ q.segments := by
    rw [hn]
    exact List.mem_append_left _ (List.mem_of_getLast? hlast)
  have hname := List.filter_eq_nil_iff.1 hnames _ hmem
  have hdot : String.ofList part = "." := by
    simpa [hpne] using hname
  rw [endsInDot, hlast, hdot]
  rfl

/-- A directory below a path is emptied, and goes itself unless its path ends in `.`. -/
theorem Rooted.removeAll (h : Rooted t p top) (hw : t.WellFormed) (hq : q.isAbsolute = false)
    (hne : q.text ≠ "") (hup : ".." ∉ q.segments)
    (hdir : t.isDirAt (top ++ namesOf q.segments) = true) :
    Loses t (StrictlyBelow top) (t.removeAll (p.join q)).1 ∧
      ((t.removeAll (p.join q)).2 = true ↔ endsInDot q = false) := by
  obtain ⟨hrest, hrel, n, hn⟩ := withoutSeparators_of_relative hq hne
  have hkept : ∀ t', Loses t (StrictlyBelow (top ++ namesOf q.segments)) t' →
      Rooted t' p top ∧ t'.isDirAt (top ++ namesOf q.segments) = true := by
    intro t' ht'
    refine ⟨h.loses (ht'.mono fun _ => .mono (List.prefix_append _ _)), ?_⟩
    rcases ht'.entry (top ++ namesOf q.segments) with heq | ⟨-, hbelow⟩
    · rw [isDirAt_iff, heq, ← isDirAt_iff]
      exact hdir
    · exact absurd rfl hbelow.2
  have hstart : ∀ t', Loses t (StrictlyBelow (top ++ namesOf q.segments)) t' →
      t'.follow true (p.join q) = .ok (top ++ namesOf q.segments) := fun t' ht' =>
    (hkept t' ht').1.follow_join ht'.wellFormed hq hup (hkept t' ht').2
  obtain ⟨t', ht', hempty, hall⟩ := attemptAll_removeFound hw hstart
  obtain ⟨hrooted, hdir'⟩ := hkept t' ht'
  have hlost : Loses t (StrictlyBelow top) t' :=
    ht'.mono fun _ => .mono (List.prefix_append _ _)
  have hnames : namesOf (withoutSeparators q).segments = namesOf q.segments := by
    rw [hn, namesOf_append, namesOf_replicate_empty, List.append_nil]
  have hfollow : t'.follow false (p.join (withoutSeparators q)) =
      .ok (top ++ namesOf q.segments) := by
    rw [← hnames] at hdir' ⊢
    exact hrooted.follow_join ht'.wellFormed hrel
      (fun h => hup (hn ▸ List.mem_append_left _ h)) hdir'
  have hremove := removeDir_join (follow_eq_ok_iff.1 h.follow).1 hq hne hup hfollow hdir' hempty
  have hwalk := walk_of_follow (hstart t (.refl hw)) (isDirAt_iff.1 hdir)
  have heq : t.removeAll (p.join q) = t'.tryRemoveDir {} (p.join q) := by
    rw [FileTree.removeAll, if_neg (by simp), hwalk]
    dsimp only
    rw [hall]
    rfl
  rw [heq, tryRemoveDir, if_neg (by simp), hremove]
  cases hdot : endsInDot q with
  | true => exact ⟨hlost, by simp [attempt]⟩
  | false =>
    refine ⟨hlost.trans ((loses_erase ht'.wellFormed hempty).mono fun loc hloc => ?_),
      by simp [attempt]⟩
    refine hloc ▸ ⟨List.prefix_append _ _, fun htop => ?_⟩
    simp [endsInDot_of_namesOf_eq_nil hq hne (by simpa using htop)] at hdot

end DocSite.FileTree
