import DocSite.Proofs.FileTree.Walk

namespace DocSite.FileTree

variable {t : FileTree} {last : Bool} {loc l : Location} {name : String} {e : Entry} {q : Path}

theorem forall_isName_concat (hnames : ∀ name ∈ loc, IsName name) (hname : IsName name) :
    ∀ other ∈ loc ++ [name], IsName other :=
  List.forall_mem_append.2 ⟨hnames, by simpa using hname⟩

theorem WellFormed.forall_isName (hw : t.WellFormed) (hdir : t.isDirAt loc = true) :
    ∀ name ∈ loc, IsName name :=
  fun _ => hw.isName (isDirAt_iff.1 hdir)

theorem splitAll_names (hne : loc ≠ []) (hnames : ∀ name ∈ loc, IsName name) :
    Text.splitAll '/' (Text.joinWith ['/'] (loc.map String.toList)) = loc.map String.toList := by
  apply Text.splitAll_joinWith (by simpa using hne)
  intro part hpart
  obtain ⟨name, hname, rfl⟩ := List.mem_map.1 hpart
  exact (hnames name hname).2.2.2

theorem segments_pathOf (hne : loc ≠ []) (hnames : ∀ name ∈ loc, IsName name) :
    (pathOf loc).segments = "" :: loc := by
  rw [Path.segments, pathOf, String.toList_ofList, Text.splitAll_cons_self,
    splitAll_names hne hnames]
  simp [Function.comp_def]

/-- Joining a relative path puts its segments behind the names of the location. -/
theorem segments_pathOf_join (hnames : ∀ name ∈ loc, IsName name) (hq : q.isAbsolute = false) :
    ((pathOf loc).join q).segments = "" :: (loc ++ q.segments) := by
  by_cases hne : loc = []
  · subst hne
    have hroot : (pathOf []).join q = ⟨"/" ++ q.text⟩ := by
      rw [Path.join_of_relative (by decide) hq]
      rfl
    rw [hroot]
    simp [Path.segments, Text.splitAll_cons_self]
  · have hsegs := segments_pathOf hne hnames
    rcases Path.segments_join (p := pathOf loc) (by simp [pathOf]) hq with h | ⟨segs, hlast, -⟩
    · rw [h, hsegs, List.cons_append]
    · -- no name of a location is empty
      rw [hsegs] at hlast
      have hempty : "" ∈ loc := by
        have hcons : ("" :: loc).getLast? = some "" := by rw [hlast]; simp
        rw [List.getLast?_cons_of_ne_nil hne] at hcons
        exact List.mem_of_getLast? hcons
      exact absurd rfl (hnames _ hempty).1

theorem pathOf_join (hnames : ∀ name ∈ loc, IsName name) (hname : IsName name) :
    (pathOf loc).join ⟨name⟩ = pathOf (loc ++ [name]) := by
  have hsep := hname.2.2.2
  rw [← Path.segments_inj,
    segments_pathOf_join hnames (Path.isAbsolute_eq_false_of_no_separator hsep),
    Path.segments_of_no_separator hsep,
    segments_pathOf (by simp) (forall_isName_concat hnames hname)]

theorem parent_pathOf_nil : (pathOf []).parent = none := Path.parent_eq_none (.inr rfl)

theorem isSkipped_of_isName (hname : IsName name) : Path.isSkipped name.toList = false := by
  have hdot : name.toList ≠ ['.'] := fun h => hname.2.1 (String.toList_injective h)
  simp [Path.isSkipped, hname.1, hdot]

theorem dropWhile_isSkipped_names (hnames : ∀ name ∈ loc, IsName name) :
    (loc.map String.toList).dropWhile Path.isSkipped = loc.map String.toList := by
  cases loc with
  | nil => rfl
  | cons name loc =>
    rw [List.map_cons, List.dropWhile_cons_of_neg]
    simp [isSkipped_of_isName (hnames name (.head _))]

theorem parent_pathOf_concat (hnames : ∀ other ∈ loc ++ [name], IsName other) :
    (pathOf (loc ++ [name])).parent = some (pathOf loc) := by
  have hback : ∀ other ∈ loc.reverse, IsName other := fun other h =>
    hnames other (List.mem_append_left _ (List.mem_reverse.1 h))
  have hrev : ((loc ++ [name]).map String.toList).reverse.dropWhile Path.isSkipped =
      name.toList :: loc.reverse.map String.toList := by
    rw [← List.map_reverse, dropWhile_isSkipped_names]
    · simp
    · exact fun other h => hnames other (List.mem_reverse.1 h)
  simp only [Path.parent, pathOf, String.toList_ofList, Path.splitHead]
  rw [splitAll_names (by simp) hnames, hrev]
  dsimp only
  rw [dropWhile_isSkipped_names hback, List.map_reverse, List.reverse_reverse]
  rfl

theorem namesOf_eq_self (hnames : ∀ name ∈ loc, IsName name) : namesOf loc = loc := by
  rw [namesOf, List.filter_eq_self]
  intro name hname
  simp [(hnames name hname).1, (hnames name hname).2.1]

theorem leads_of_names (hw : t.WellFormed) (hdir : t.isDirAt loc = true) (links : Nat) :
    Leads t last links [] ("" :: loc) loc := by
  have hnames := hw.forall_isName hdir
  have hself := namesOf_eq_self hnames
  have hleads : Leads t last links [] loc ([] ++ namesOf loc) :=
    leads_of_isDirAt hw (fun h => (hnames _ h).2.2.1 rfl) (by rwa [hself]) links
  rw [hself] at hleads
  exact .here rfl (.inl rfl) hleads

theorem follow_pathOf (hw : t.WellFormed) (hdir : t.isDirAt loc = true) :
    t.follow last (pathOf loc) = .ok loc := by
  by_cases hne : loc = []
  · subst hne
    exact follow_eq_ok_iff.2 ⟨by decide, .here rfl (.inl rfl) (.here rfl (.inl rfl) .arrived)⟩
  · have habs : (pathOf loc).isAbsolute = true := by simp [Path.isAbsolute, pathOf]
    refine follow_eq_ok_iff.2 ⟨by simp [pathOf], ?_⟩
    rw [habs, if_pos rfl, segments_pathOf hne (hw.forall_isName hdir)]
    exact leads_of_names hw hdir _

/-- A name below a directory leads to its own place where no link stands. -/
theorem follow_pathOf_concat (hw : t.WellFormed) (hdir : t.isDirAt loc = true)
    (hname : IsName name) (hlink : ∀ target, t.entryAt (loc ++ [name]) ≠ some (.link target)) :
    t.follow last (pathOf (loc ++ [name])) = .ok (loc ++ [name]) := by
  have hsep := hname.2.2.2
  rw [← pathOf_join (hw.forall_isName hdir) hname]
  apply follow_join (follow_pathOf hw hdir) hdir (Path.isAbsolute_eq_false_of_no_separator hsep)
  intro links
  rw [Path.segments_of_no_separator hsep]
  cases hentry : t.entryAt (loc ++ [name]) with
  | none => exact .missing hdir (isStep_of_isName hname) hentry
  | some e =>
    refine .child hdir (isStep_of_isName hname) hentry (fun target h => ?_) .arrived
    exact hlink target (h ▸ hentry)

/-- A name below a directory leads to something just if an entry stands there that, if it is a
link, leads to something. -/
theorem hasPath_pathOf_concat (hw : t.WellFormed) (hdir : t.isDirAt loc = true)
    (hname : IsName name) : t.hasPath (pathOf (loc ++ [name])) = true ↔
      ∃ e, t.entryAt (loc ++ [name]) = some e ∧
        ∀ target, e = .link target → t.hasPath (pathOf (loc ++ [name])) = true := by
  constructor
  · intro h
    cases hentry : t.entryAt (loc ++ [name]) with
    | some e => exact ⟨e, rfl, fun _ _ => h⟩
    | none =>
      obtain ⟨l, e, hl, he⟩ := hasPath_iff.1 h
      have hplace : t.follow true (pathOf (loc ++ [name])) = .ok (loc ++ [name]) :=
        follow_pathOf_concat hw hdir hname (by simp [hentry])
      obtain rfl := eq_of_eq_ok hplace hl
      simp [hentry] at he
  · rintro ⟨e, hentry, hlink⟩
    by_cases hl : ∃ target, e = .link target
    · obtain ⟨target, rfl⟩ := hl
      exact hlink target rfl
    · refine hasPath_iff.2 ⟨_, e, follow_pathOf_concat hw hdir hname fun target h => ?_, hentry⟩
      exact hl ⟨target, Option.some.inj (hentry.symm.trans h)⟩

end DocSite.FileTree
