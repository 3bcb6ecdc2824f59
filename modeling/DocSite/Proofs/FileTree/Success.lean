import DocSite.Proofs.FileTree.Removal

namespace DocSite.FileTree

variable {t t' : FileTree} {P : Location → Prop} {loc l root : Location} {e : Entry} {p q : Path}
variable {links : Nat} {segs : List String} {x : Refusals}

/-- The second tree is the first without some of its entries. -/
abbrev Shrinks (t t' : FileTree) : Prop := Loses t (fun _ => True) t'

theorem Loses.shrinks (h : Loses t P t') : Shrinks t t' := h.mono fun _ _ => trivial

/-- The second attempt is the first one if that succeeded, and goes at least as far if not. -/
structure Attempt.UpTo (a b : Attempt) : Prop where
  eq_of_true : a.2 = true → b = a
  gone : ∀ loc, a.1.entryAt loc = none → b.1.entryAt loc = none

theorem Attempt.UpTo.refl (a : Attempt) : UpTo a a := ⟨fun _ => rfl, fun _ h => h⟩

theorem tryRemoveFile_upTo (hw : t.WellFormed) :
    Attempt.UpTo (t.tryRemoveFile x p) (t.tryRemoveFile {} p) := by
  by_cases hx : x.removal t p = true
  · -- the refused attempt changes nothing
    have hfail : t.tryRemoveFile x p = (t, false) := by simp [tryRemoveFile, hx]
    rw [hfail]
    exact ⟨by simp, fun _ => (tryRemoveFile_loses hw {}).entryAt_eq_none⟩
  · have hsame : t.tryRemoveFile x p = t.tryRemoveFile {} p := by simp [tryRemoveFile, hx]
    rw [hsame]
    exact .refl _

theorem tryRemoveDir_upTo (hw : t.WellFormed) :
    Attempt.UpTo (t.tryRemoveDir x p) (t.tryRemoveDir {} p) := by
  by_cases hx : x.removal t p = true
  · have hfail : t.tryRemoveDir x p = (t, false) := by simp [tryRemoveDir, hx]
    rw [hfail]
    exact ⟨by simp, fun _ => (tryRemoveDir_loses hw {}).entryAt_eq_none⟩
  · have hsame : t.tryRemoveDir x p = t.tryRemoveDir {} p := by simp [tryRemoveDir, hx]
    rw [hsame]
    exact .refl _

theorem removeFound_upTo {f : Found} (hw : t.WellFormed) :
    Attempt.UpTo (removeFound x t f) (removeFound {} t f) := by
  unfold removeFound
  split
  · exact tryRemoveDir_upTo hw
  · exact tryRemoveFile_upTo hw

theorem removeFound_shrinks {f : Found} (hw : t.WellFormed) :
    Shrinks t (removeFound x t f).1 := by
  unfold removeFound
  split
  · exact (tryRemoveDir_loses hw x).shrinks
  · exact (tryRemoveFile_loses hw x).shrinks

theorem attemptAll_shrinks {α : Type} {step : FileTree → α → Attempt} {items : List α}
    (hw : t.WellFormed) (hstep : ∀ t, t.WellFormed → ∀ a, Shrinks t (step t a).1) :
    Shrinks t (t.attemptAll step items).1 :=
  attemptAll_loses (.refl hw) fun _ h a _ => hstep _ h.wellFormed a

theorem Attempt.UpTo.andThen {a b : Attempt} {next next' : FileTree → Attempt} (h : UpTo a b)
    (hnext : a.2 = true → UpTo (next a.1) (next' a.1)) (hw : b.1.WellFormed)
    (hshrinks : Shrinks b.1 (next' b.1).1) : UpTo (a.andThen next) (b.andThen next') := by
  by_cases ha : a.2 = true
  · -- both attempts go on from the same tree
    obtain rfl := h.eq_of_true ha
    simpa only [Attempt.andThen, ha, if_true] using hnext ha
  · have hstop : a.andThen next = a := by simp [Attempt.andThen, ha]
    rw [hstop]
    refine ⟨fun h => absurd h ha, fun loc hgone => ?_⟩
    exact (andThen_loses (.refl hw) hshrinks).entryAt_eq_none (h.gone loc hgone)

theorem attemptAll_upTo {α : Type} {step step' : FileTree → α → Attempt} {items : List α}
    (hw : t.WellFormed) (hstep : ∀ t, t.WellFormed → ∀ a, Attempt.UpTo (step t a) (step' t a))
    (hshrinks : ∀ t, t.WellFormed → ∀ a, Shrinks t (step' t a).1) :
    Attempt.UpTo (t.attemptAll step items) (t.attemptAll step' items) := by
  induction items generalizing t with
  | nil => exact .refl _
  | cons a items ih =>
    have hw' := (hshrinks t hw a).wellFormed
    rw [attemptAll_cons, attemptAll_cons]
    refine (hstep t hw a).andThen (fun ha => ?_) hw' (attemptAll_shrinks hw' hshrinks)
    exact ih ((hstep t hw a).eq_of_true ha ▸ hw')

theorem removeAll_upTo (hw : t.WellFormed) :
    Attempt.UpTo (t.removeAll p x) (t.removeAll p) := by
  by_cases hx : x.listing t p = true
  · have hfail : t.removeAll p x = (t, false) := by simp [removeAll, hx]
    rw [hfail]
    exact ⟨by simp, fun _ => (removeAll_loses hw).entryAt_eq_none⟩
  unfold removeAll
  rw [if_neg hx, if_neg (by simp)]
  split
  · exact .refl _
  · have hall : ∀ {x items}, Shrinks t (t.attemptAll (removeFound x) items).1 :=
      attemptAll_shrinks hw fun _ hw _ => removeFound_shrinks hw
    refine (attemptAll_upTo hw (fun _ hw _ => removeFound_upTo hw) fun _ hw _ =>
      removeFound_shrinks hw).andThen (fun _ => tryRemoveDir_upTo hall.wellFormed)
        hall.wellFormed (tryRemoveDir_loses hall.wellFormed {}).shrinks

theorem removeFile_of_entryAt (h : t.follow false p = .ok loc) (he : t.entryAt loc = some e)
    (hdir : e ≠ .dir) : t.removeFile p = .ok (t.erase loc) := by
  cases e with
  | dir => exact absurd rfl hdir
  | file bytes => exact bind_eq_ok.2 ⟨loc, h, by rw [he]⟩
  | link target => exact bind_eq_ok.2 ⟨loc, h, by rw [he]⟩

/-- Without the separators at its end, a relative path is a path of the same names. -/
theorem withoutSeparators_of_relative (hq : q.isAbsolute = false) (hne : q.text ≠ "") :
    (withoutSeparators q).text ≠ "" ∧ (withoutSeparators q).isAbsolute = false ∧
      ∃ n, q.segments = (withoutSeparators q).segments ++ List.replicate n "" := by
  obtain ⟨n, hn⟩ := exists_toList_eq q
  obtain ⟨c, cs, hcs⟩ := List.exists_cons_of_ne_nil (by simpa using hne : q.text.toList ≠ [])
  have hc : c ≠ '/' := by simpa [Path.isAbsolute, hcs] using hq
  have hrest : (withoutSeparators q).text.toList ≠ [] := by
    intro hnil
    rw [hcs, hnil, List.nil_append] at hn
    have hmem : c ∈ List.replicate n '/' := hn ▸ List.mem_cons_self
    exact hc (List.eq_of_mem_replicate hmem)
  obtain ⟨d, ds, hds⟩ := List.exists_cons_of_ne_nil hrest
  have hd : c = d := by simpa [hcs, hds] using congrArg List.head? hn
  refine ⟨by simpa using hrest, ?_, n, ?_⟩
  · simpa [Path.isAbsolute, hds, ← hd] using hc
  · simp [Path.segments, hn, Text.splitAll_append_replicate]

theorem withoutSeparators_join (hp : p.text ≠ "") (hq : q.isAbsolute = false) (hne : q.text ≠ "") :
    withoutSeparators (p.join q) = p.join (withoutSeparators q) := by
  have hkept : ∃ d ∈ q.text.toList, (d == '/') = false := by
    obtain ⟨c, cs, hcs⟩ := List.exists_cons_of_ne_nil (by simpa using hne : q.text.toList ≠ [])
    exact ⟨c, by simp [hcs], by simpa [Path.isAbsolute, hcs] using hq⟩
  rw [Path.join_of_relative hp hq,
    Path.join_of_relative hp (withoutSeparators_of_relative hq hne).2.1]
  have hdrop := fun start => Text.dropEndWhile_append (a := start) hkept
  apply Path.text_inj.1
  split
  · simp [withoutSeparators, hdrop]
  · simpa [withoutSeparators, String.ext_iff] using hdrop (p.text.toList ++ ['/'])

/-- Whether the last segment of a path, apart from separators at its end, is `.`. -/
def endsInDot (p : Path) : Bool := (withoutSeparators p).segments.getLast? == some "."

/-- An empty directory is removed by its path, unless that ends in `.`. -/
theorem removeDir_join (hp : p.text ≠ "") (hq : q.isAbsolute = false) (hne : q.text ≠ "")
    (hup : ".." ∉ q.segments) (h : t.follow false (p.join (withoutSeparators q)) = .ok loc)
    (hdir : t.isDirAt loc = true) (hempty : t.below loc = []) :
    t.removeDir (p.join q) = if endsInDot q then .error .invalidArgument else .ok (t.erase loc) := by
  obtain ⟨-, hrel, n, hn⟩ := withoutSeparators_of_relative hq hne
  -- the path ends as its second part does
  have hlast : (p.join (withoutSeparators q)).segments.getLast? =
      (withoutSeparators q).segments.getLast? := by
    obtain ⟨segs, seg, hsegs⟩ : ∃ segs seg, (withoutSeparators q).segments = segs ++ [seg] :=
      ⟨_, _, (List.dropLast_concat_getLast (Path.segments_ne_nil _)).symm⟩
    rcases Path.segments_join hp hrel with h | ⟨base, -, h⟩ <;> simp [h, hsegs, ← List.append_assoc]
  have hparts : ∀ name, (Text.splitAll '/'
      (p.join (withoutSeparators q)).text.toList).getLast? = some name →
      (withoutSeparators q).segments.getLast? = some (String.ofList name) := by
    intro name hname
    rw [← hlast, Path.segments, List.getLast?_map, hname]
    rfl
  unfold removeDir
  simp only [withoutSeparators_join hp hq hne, h, bind, Except.bind]
  split
  · rename_i heq
    have hends : (withoutSeparators q).segments.getLast? = some "." := hparts _ heq
    rw [if_pos (by rw [endsInDot, hends]; rfl)]
  · rename_i heq
    refine absurd ?_ hup
    rw [hn]
    exact List.mem_append_left _ (List.mem_of_getLast? (hparts _ heq))
  · rename_i hdot _
    simp only [isDirAt_iff.1 hdir, hempty, List.isEmpty_nil, if_true]
    rw [if_neg]
    intro hends
    have hends : (withoutSeparators q).segments.getLast? = some "." := by
      simpa [endsInDot] using hends
    rw [← hlast, Path.segments, List.getLast?_map, Option.map_eq_some_iff] at hends
    obtain ⟨part, hpart, hname⟩ := hends
    refine hdot ?_
    rw [hpart, ← String.toList_ofList (l := part), hname]
    rfl

theorem removeDir_of_below_eq_nil {name : String} (hp : p.text ≠ "") (hname : IsName name)
    (h : t.follow false (p.join ⟨name⟩) = .ok loc) (hdir : t.isDirAt loc = true)
    (hempty : t.below loc = []) : t.removeDir (p.join ⟨name⟩) = .ok (t.erase loc) := by
  have hrel := Path.isAbsolute_eq_false_of_no_separator hname.2.2.2
  have hone := Path.segments_of_no_separator hname.2.2.2
  -- a name has no separators at its end
  have hsame : withoutSeparators ⟨name⟩ = ⟨name⟩ := by
    obtain ⟨n, hn⟩ := exists_toList_eq ⟨name⟩
    cases n with
    | zero => exact Path.text_inj.1 (String.toList_injective (by simpa using hn.symm))
    | succ n => exact absurd (by simp [hn] : '/' ∈ name.toList) hname.2.2.2
  have hdot : endsInDot ⟨name⟩ = false := by simp [endsInDot, hsame, hone, hname.2.1]
  rw [removeDir_join hp hrel hname.1 (by simpa [hone] using Ne.symm hname.2.2.1)
    (hsame.symm ▸ h) hdir hempty, if_neg (by simp [hdot])]

theorem below_eq_nil_of_last (hw : t.WellFormed) {first : List (Location × Entry)}
    (h : t.below root = first ++ [(l, e)]) : t.below l = [] := by
  have hl : root <+: l ∧ l ≠ root := (mem_below_iff.1 (by simp [h] : (l, e) ∈ t.below root)).2
  refine List.eq_nil_iff_forall_not_mem.2 fun g hg => ?_
  obtain ⟨hg, hle, hne⟩ := mem_below_iff.1 hg
  have hroot : g.1 ≠ root := by
    rintro rfl
    exact hl.2 (hl.1.eq_of_length_le hle.length_le).symm
  have hmem : g ∈ first ++ [(l, e)] :=
    h ▸ mem_below_iff.2 ⟨hg, hl.1.trans hle, hroot⟩
  have hordered : (first ++ [(l, e)]).Pairwise fun a b => ¬b.1 <+: a.1 := h ▸ hw.ordered.filter _
  rcases List.mem_append.1 hmem with hmem | hmem
  · exact absurd hle ((List.pairwise_append.1 hordered).2.2 g hmem (l, e) (by simp))
  · exact hne (by simp [List.mem_singleton.1 hmem])

theorem removeFound_of_below_eq_nil {start : Path} {f : Found} (hw : t.WellFormed)
    (hf : t.FoundIn start root f) (hempty : t.below (root ++ f.names) = []) :
    removeFound {} t f = (t.erase (root ++ f.names), true) := by
  have hfollow := hf.follow_path hw false (by simp)
  unfold removeFound
  split
  · rename_i hdir
    obtain ⟨names, name, hnames⟩ : ∃ names name, f.names = names ++ [name] :=
      ⟨_, _, (List.dropLast_concat_getLast hf.names_ne_nil).symm⟩
    have hname : ∀ n ∈ f.names, IsName n := fun n hn =>
      hw.isName hf.entry_eq (List.mem_append_right _ hn)
    have hat := isDirAt_iff.2 (hdir ▸ hf.entry_eq)
    rw [hf.path_eq, hnames, pathBelow_concat] at hfollow
    have hp : (Found.pathBelow start names).text ≠ "" :=
      pathBelow_ne_empty (follow_eq_ok_iff.1 hf.start_leads).1 fun n hn =>
        (hname n (by simp [hnames, hn])).2.2.2
    have hok := removeDir_of_below_eq_nil hp (hname name (by simp [hnames])) hfollow
      (hnames ▸ hat) (hnames ▸ hempty)
    rw [tryRemoveDir, hf.path_eq, hnames, pathBelow_concat, hok]
    rfl
  · rename_i hdir
    rw [tryRemoveFile, removeFile_of_entryAt hfollow hf.entry_eq fun he => hdir he]
    rfl

theorem exists_last_of_walk {start : Path} (hw : t.WellFormed)
    (hroot : t.follow true start = .ok root) (hdir : t.isDirAt root = true)
    (hne : t.below root ≠ []) : ∃ first f, t.walk start = .ok (first ++ [f]) ∧
      t.FoundIn start root f ∧ t.below (root ++ f.names) = [] := by
  obtain ⟨first, ⟨l, e⟩, hlast⟩ : ∃ first f, t.below root = first ++ [f] :=
    ⟨_, _, (List.dropLast_concat_getLast hne).symm⟩
  obtain ⟨he, ⟨names, rfl⟩, hneq⟩ :=
    hw.mem_below_iff.1 (by simp [hlast] : (l, e) ∈ t.below root)
  have hf : t.FoundIn start root ⟨names, Found.pathBelow start names, e⟩ :=
    ⟨hroot, by simpa using hneq, rfl, he⟩
  have hwalk := walk_of_follow hroot (isDirAt_iff.1 hdir)
  rw [hlast, List.map_append, List.map_singleton, List.drop_left] at hwalk
  exact ⟨_, _, hwalk, hf, below_eq_nil_of_last hw hlast⟩

/-- Of a directory that is not empty, at least one entry goes. -/
theorem exists_gone_of_removeAll {start : Path} (hw : t.WellFormed)
    (hroot : t.follow true start = .ok root) (hdir : t.isDirAt root = true)
    (hne : t.below root ≠ []) : ∃ loc e, root <+: loc ∧ loc ≠ root ∧ t.entryAt loc = some e ∧
      (t.removeAll start).1.entryAt loc = none := by
  -- contents go first, so the removal starts with the entry that was listed last
  obtain ⟨first, f, hwalk, hf, hempty⟩ := exists_last_of_walk hw hroot hdir hne
  have hgone := removeFound_gone hw hf (.refl (P := fun _ => True) hw)
    (by rw [removeFound_of_below_eq_nil hw hf hempty])
  have hstep : ∀ t', Loses t (InDir t start) t' → ∀ g ∈ (first ++ [f]).reverse,
      Loses t' (InDir t start) (removeFound {} t' g).1 := fun t' h g hg =>
    removeFound_loses_inDir hw hwalk (List.mem_reverse.1 hg) h
  have hall := attemptAll_loses (.refl hw) hstep
  have hturn : IsTurn t (removeFound {}) (first ++ [f]).reverse f t :=
    ⟨[], first.reverse, List.reverse_concat .., rfl⟩
  refine ⟨root ++ f.names, f.entry, List.prefix_append _ _, ?_, hf.entry_eq, ?_⟩
  · simpa using hf.names_ne_nil
  · rw [removeAll, if_neg (by simp), hwalk]
    refine (andThen_loses (.refl (P := fun _ => True) hall.wellFormed) ?_).entryAt_eq_none ?_
    · exact (tryRemoveDir_loses hall.wellFormed {}).mono fun _ _ => trivial
    · exact (hturn.loses_after hw hstep).entryAt_eq_none hgone

end DocSite.FileTree
