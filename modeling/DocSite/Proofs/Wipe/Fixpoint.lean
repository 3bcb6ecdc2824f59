import DocSite.Proofs.FileTree.Creation
import DocSite.Proofs.Wipe.Success

namespace DocSite

open FileTree (Loses Shrinks IsTurn Refusals Attempt)

variable {t : FileTree} {loc root : Location} {x : Refusals} {target : Path} {c : Config}
variable {r : Resource} {name : String} {p q : Path}

namespace FileTree

theorem Loses.isDir_eq_false {P : Location → Prop} {t' : FileTree} (h : Loses t P t')
    (hno : t.isDir p = false) : t'.isDir p = false :=
  Bool.eq_false_iff.2 fun hdir => by simp [h.isDir hdir] at hno

theorem Loses.isFile_eq_false {P : Location → Prop} {t' : FileTree} (h : Loses t P t')
    (hno : t.isFile p = false) : t'.isFile p = false :=
  Bool.eq_false_iff.2 fun hfile => by simp [h.isFile hfile] at hno

section Attempts

variable {α : Type} {step : FileTree → α → Attempt} {items : List α}

/-- What each step establishes for its item when it succeeds, and what no later removal undoes,
holds of all items in the end. -/
theorem of_attemptAll {Q : FileTree → α → Prop} (hw : t.WellFormed)
    (hstep : ∀ t, t.WellFormed → ∀ a, Shrinks t (step t a).1)
    (hdone : ∀ t, t.WellFormed → ∀ a, (step t a).2 = true → Q (step t a).1 a)
    (hkeep : ∀ t t' a, Shrinks t t' → Q t a → Q t' a)
    (hok : (t.attemptAll step items).2 = true) : ∀ a ∈ items, Q (t.attemptAll step items).1 a := by
  intro a ha
  have hshrinks : ∀ t', Shrinks t t' → ∀ a ∈ items, Shrinks t' (step t' a).1 :=
    fun t' h a _ => hstep t' h.wellFormed a
  obtain ⟨s, hs, hsok⟩ := exists_turn_of_true hok ha
  have hts : Shrinks t s := hs.loses hw hshrinks
  exact hkeep _ _ a (hs.loses_after hw hshrinks) (hdone s hts.wellFormed a hsok)

/-- Steps that change nothing and succeed do so one after the other. -/
theorem attemptAll_eq_self (h : ∀ a ∈ items, step t a = (t, true)) :
    t.attemptAll step items = (t, true) := by
  induction items with
  | nil => rfl
  | cons a items ih =>
    rw [attemptAll_cons, h a (.head _)]
    exact ih fun b hb => h b (.tail _ hb)

end Attempts

/-- The root cannot be removed, so a removal that succeeds was of another directory. -/
theorem ne_nil_of_removeAll (hw : t.WellFormed) (hok : (t.removeAll p x).2 = true)
    (hroot : t.follow true p = .ok root) : root ≠ [] := by
  unfold removeAll at hok
  split at hok
  · simp at hok
  split at hok
  · simp at hok
  rename_i found hwalk
  obtain ⟨-, heq⟩ := andThen_eq_of_true hok
  rw [heq] at hok
  have hshrinks : Shrinks t (t.attemptAll (removeFound x) found.reverse).1 :=
    attemptAll_shrinks hw fun _ hw _ => removeFound_shrinks hw
  generalize (t.attemptAll (removeFound x) found.reverse).1 = t' at *
  unfold tryRemoveDir attempt at hok
  split at hok
  · simp at hok
  split at hok
  · rename_i hremove
    obtain ⟨loc, hloc, hdir, -, hne, -⟩ := removeDir_eq_ok hremove
    obtain rfl := eq_of_eq_ok (hshrinks.follow hloc (isDirAt_iff.1 hdir)) hroot
    exact hne
  · simp at hok

end FileTree

namespace Wipe

theorem isDir_resource (hw : t.WellFormed) (hok : (resource x target t r).2 = true) :
    (resource x target t r).1.isDir (target.join ⟨r.destination⟩) = false := by
  rw [Bool.eq_false_iff]
  intro hdir
  have hloses := resource_loses hw x target r
  have hbefore := hloses.isDir hdir
  have hall : resource x target t r = t.removeAll (target.join ⟨r.destination⟩) x := if_pos hbefore
  rw [hall] at hok hdir hloses
  obtain ⟨root, hroot, hat⟩ := FileTree.isDir_iff.1 hbefore
  obtain ⟨l, hl, hlat⟩ := FileTree.isDir_iff.1 hdir
  obtain rfl := eq_of_eq_ok (hloses.follow hl (FileTree.isDirAt_iff.1 hlat)) hroot
  have hgone := FileTree.removeAll_gone hw hok ⟨l, hroot, hat, List.prefix_refl _⟩
    (FileTree.ne_nil_of_removeAll hw hok hroot)
  rw [FileTree.isDirAt_iff, hgone] at hlat
  contradiction

theorem isFile_commonPage (hw : t.WellFormed) (hok : (commonPage x target t name).2 = true) :
    (commonPage x target t name).1.isFile (target.join ⟨name⟩) = false := by
  rw [Bool.eq_false_iff]
  intro hfile
  have hloses := commonPage_loses hw x target name
  have hbefore := hloses.isFile hfile
  have hall : commonPage x target t name = t.tryRemoveFile x (target.join ⟨name⟩) := if_pos hbefore
  rw [hall] at hok hfile hloses
  obtain ⟨loc, e, hloc, -, hgone⟩ := FileTree.exists_gone_of_tryRemoveFile hok
  -- the name would still lead to something without its last link, but that was removed
  obtain ⟨l, bytes, hl, hle⟩ := FileTree.isFile_iff.1 hfile
  obtain ⟨l', e', hl', hle'⟩ := FileTree.exists_follow_false hl hle
  obtain rfl := eq_of_eq_ok (hloses.follow hl' hle') hloc
  rw [hgone] at hle'
  contradiction

theorem not_namedPageAt (hw : t.WellFormed) (hok : (namedPages x target c t).2 = true) :
    ¬NamedPageAt target c (namedPages x target c t).1 loc := by
  intro hpage
  have hgone := namedPages_gone hw hok (hpage.of_loses (namedPages_loses hw x target c))
  obtain ⟨_, _, bytes, -, -, -, he, -⟩ := hpage
  rw [hgone] at he
  contradiction

/-- Nothing that is named for removal is left below a target. -/
structure Wiped (target : Path) (c : Config) (t : FileTree) : Prop where
  copies : ∀ r ∈ c.resources, t.isDir (target.join ⟨r.destination⟩) = false
  commonPages : ∀ name ∈ c.templates.common.keys, t.isFile (target.join ⟨name⟩) = false
  namedPages : ∀ top names bytes, t.follow true target = .ok top → names ≠ [] →
    t.entryAt (top ++ names) = some (.file bytes) →
    ∀ kind pattern, (kind, pattern) ∈ c.filenames.patterns → ¬Filenames.CouldName pattern names

/-- A wipe that succeeds in a target that is there leaves nothing that it was to remove. -/
theorem wiped_of_wipe (hw : t.WellFormed) (h : t.hasPath target = true)
    (hok : (wipe target c t x).2 = true) : Wiped target c (wipe target c t x).1 := by
  rw [wipe_of_hasPath h] at hok ⊢
  obtain ⟨hfixed, hnamed⟩ := FileTree.andThen_eq_of_true hok
  obtain ⟨hresources, hcommon⟩ := FileTree.andThen_eq_of_true hfixed
  rw [hnamed] at hok ⊢
  rw [hcommon] at hfixed hok ⊢
  have hcopies : ∀ r ∈ c.resources,
      (resources x target c t).1.isDir (target.join ⟨r.destination⟩) = false :=
    FileTree.of_attemptAll
      (Q := fun t (r : Resource) => t.isDir (target.join ⟨r.destination⟩) = false) hw
      (fun t hw r => (resource_loses hw x target r).shrinks) (fun t hw r => isDir_resource hw)
      (fun t t' r h => h.isDir_eq_false) hresources
  have hu₁ := (resources_loses hw x target c).wellFormed
  generalize (resources x target c t).1 = u₁ at *
  have hpages : ∀ name ∈ c.templates.common.keys,
      (commonPages x target c u₁).1.isFile (target.join ⟨name⟩) = false :=
    FileTree.of_attemptAll (Q := fun t name => t.isFile (target.join ⟨name⟩) = false) hu₁
      (fun t hw name => (commonPage_loses hw x target name).shrinks)
      (fun t hw name => isFile_commonPage hw) (fun t t' name h => h.isFile_eq_false) hfixed
  have hsecond := (commonPages_loses hu₁ x target c).shrinks
  generalize (commonPages x target c u₁).1 = u₂ at *
  have hthird := (namedPages_loses hsecond.wellFormed x target c).shrinks
  -- what was gone after the first phases is not brought back by the later ones
  constructor
  · exact fun r hr => (hsecond.trans hthird).isDir_eq_false (hcopies r hr)
  · exact fun name hname => hthird.isFile_eq_false (hpages name hname)
  · intro top names bytes htop hne he kind pattern hp hnames
    apply not_namedPageAt hsecond.wellFormed hok
    exact ⟨top, names, bytes, htop, hne, rfl, he, kind, pattern, hp, hnames⟩

/-- Where nothing is left, a wipe changes nothing. It fails only if it cannot list the target. -/
theorem Wiped.wipe_eq (h : Wiped target c t) (hw : t.WellFormed) :
    wipe target c t x = (t, !t.hasPath target || !x.listing t target) := by
  cases hpath : t.hasPath target with
  | false => simp [wipe, hpath]
  | true =>
    have hcopies : resources x target c t = (t, true) :=
      FileTree.attemptAll_eq_self fun r hr => by simp [resource, h.copies r hr]
    have hpages : Wipe.commonPages x target c t = (t, true) :=
      FileTree.attemptAll_eq_self fun name hname => by simp [commonPage, h.commonPages name hname]
    have hparts : wipe target c t x = Wipe.namedPages x target c t := by
      rw [wipe_of_hasPath hpath, hcopies]
      simp only [Attempt.andThen, if_true, hpages]
    rw [hparts]
    unfold Wipe.namedPages
    cases hlist : x.listing t target with
    | true => rfl
    | false =>
      obtain ⟨⟨top, e⟩, hstat⟩ : ∃ place, t.stat target = .ok place := by
        unfold FileTree.hasPath at hpath
        cases hstat : t.stat target with
        | ok place => exact ⟨place, rfl⟩
        | error cause => simp [hstat, Except.toBool] at hpath
      obtain ⟨htop, he⟩ := FileTree.stat_eq_ok_iff.1 hstat
      obtain ⟨found, hwalk⟩ : ∃ found, t.walk target = .ok found :=
        ⟨_, FileTree.walk_of_follow htop he⟩
      have hnone : found.filter (isNamed c) = [] := by
        refine List.filter_eq_nil_iff.2 fun f hf hnamed => ?_
        obtain ⟨⟨bytes, hbytes⟩, kind, pattern, hp, hnames⟩ := isNamed_iff.1 hnamed
        have hf := (FileTree.mem_walk_iff hw hwalk htop).1 hf
        have hentry := hbytes ▸ hf.entry_eq
        exact h.namedPages top f.names bytes htop hf.names_ne_nil hentry kind pattern hp hnames
      simp [hwalk, hnone, FileTree.attemptAll_nil]

/-- What a name leads to below a target. Nothing is below a target that is missing, so the name
must not lead elsewhere then: it is relative, and the path of the target is not empty. -/
def IsBelow (t : FileTree) (target : Path) (name : String) : Prop :=
  t.hasPath target = true ∨ target.text ≠ "" ∧ Path.isAbsolute ⟨name⟩ = false

theorem not_follow_of_missing {last : Bool} (h : t.hasPath target = false)
    (hbelow : IsBelow t target name) : t.follow last (target.join ⟨name⟩) ≠ .ok loc := by
  rcases hbelow with hpath | ⟨htext, hrel⟩
  · simp [h] at hpath
  · intro hloc
    obtain ⟨top, htop, hdir⟩ := FileTree.exists_follow_of_join htext hrel hloc
    simp [hasPath_of_isDirAt htop hdir] at h

end Wipe

open Wipe in
/-- A missing target is wiped already. If a wipe succeeds, whatever the tree, no destination of a
resource below the target is a directory, no page with a fixed name is a file there, and no file
there has a name that one of the patterns could give: the mask of the pattern accepts none. A second
wipe changes nothing, and it succeeds again if it can list the target. -/
theorem wipe_complete (target : Path) (c : Config) (x : Refusals) (hw : t.WellFormed) :
    (t.hasPath target = false → wipe target c t x = (t, true)) ∧
    ((wipe target c t x).2 = true →
      (∀ r ∈ c.resources, IsBelow t target r.destination →
        (wipe target c t x).1.isDir (target.join ⟨r.destination⟩) = false) ∧
      (∀ name ∈ c.templates.common.keys, IsBelow t target name →
        (wipe target c t x).1.isFile (target.join ⟨name⟩) = false) ∧
      (∀ top names bytes, (wipe target c t x).1.follow true target = .ok top → names ≠ [] →
        (wipe target c t x).1.entryAt (top ++ names) = some (.file bytes) →
          ∀ kind pattern, (kind, pattern) ∈ c.filenames.patterns →
            ¬Filenames.CouldName pattern names ∧
            ∀ m, Mask.ofPattern? pattern = some m → m.acceptsFile names = false) ∧
      ∀ y : Refusals, (wipe target c (wipe target c t x).1 y).1 = (wipe target c t x).1 ∧
        (y.listing (wipe target c t x).1 target = false →
          (wipe target c (wipe target c t x).1 y).2 = true)) := by
  have hmissing : ∀ x, t.hasPath target = false → wipe target c t x = (t, true) :=
    fun x h => by simp [wipe, h]
  refine ⟨hmissing x, fun hok => ?_⟩
  cases h : t.hasPath target with
  | false =>
    simp only [hmissing _ h]
    refine ⟨fun r _ hbelow => ?_, fun name _ hbelow => ?_, ?_, fun y => ⟨trivial, fun _ => trivial⟩⟩
    · refine Bool.eq_false_iff.2 fun hdir => ?_
      obtain ⟨loc, hloc, -⟩ := FileTree.isDir_iff.1 hdir
      exact not_follow_of_missing h hbelow hloc
    · refine Bool.eq_false_iff.2 fun hfile => ?_
      obtain ⟨loc, _, hloc, -⟩ := FileTree.isFile_iff.1 hfile
      exact not_follow_of_missing h hbelow hloc
    · intro top names bytes htop hne he
      have hdir := hw.isDirAt_of_append hne he
      simp [hasPath_of_isDirAt htop hdir] at h
  | true =>
    have hwiped := wiped_of_wipe hw h hok
    have hw' := (wipe_loses hw x target c).wellFormed
    refine ⟨fun r hr _ => hwiped.copies r hr, fun name hname _ => hwiped.commonPages name hname,
      ?_, fun y => ?_⟩
    · intro top names bytes htop hne he kind pattern hp
      have hnames := hwiped.namedPages top names bytes htop hne he kind pattern hp
      refine ⟨hnames, fun m hm => Bool.eq_false_iff.2 fun hacc => ?_⟩
      exact hnames (Mask.exists_acceptsFile_iff.1 ⟨m, hm, hacc⟩)
    · rw [hwiped.wipe_eq hw']
      exact ⟨rfl, fun hlist => by simp [hlist]⟩

namespace Wipe

/-- The page of a class is gone because a pattern could have named it. -/
theorem wipe_usedOutput_complete : usedOutput.WellFormed ∧
    (wipe ⟨"out"⟩ oneOfEach usedOutput).2 = true ∧
    (wipe ⟨"out"⟩ oneOfEach usedOutput).1.isDir ⟨"out/css"⟩ = false ∧
    usedOutput.entryAt ["out", "class-A.html"] = some (.file .empty) ∧
    (∀ bytes, (wipe ⟨"out"⟩ oneOfEach usedOutput).1.entryAt ["out", "class-A.html"] ≠
      some (.file bytes)) ∧
    wipe ⟨"out"⟩ oneOfEach (wipe ⟨"out"⟩ oneOfEach usedOutput).1 =
      ((wipe ⟨"out"⟩ oneOfEach usedOutput).1, true) := by
  have hok : (wipe ⟨"out"⟩ oneOfEach usedOutput).2 = true := by decide +kernel
  obtain ⟨hcopies, -, hnamed, hagain⟩ :=
    (wipe_complete ⟨"out"⟩ oneOfEach {} usedOutput_wellFormed).2 hok
  obtain ⟨hsame, htrue⟩ := hagain {}
  have hdir := hcopies ⟨⟨"./res"⟩, "css"⟩ (by decide +kernel) (.inl (by decide +kernel))
  have htop : (wipe ⟨"out"⟩ oneOfEach usedOutput).1.follow true ⟨"out"⟩ = .ok ["out"] := by
    decide +kernel
  have hname : Filenames.CouldName "class-%s.html" ["class-A.html"] := by
    refine ⟨"class-".toList, ".html".toList, ['A'], ?_, by decide, by decide⟩
    exact Text.splitAt?_eq_some_iff.1 (by decide)
  have hpage : ∀ bytes, (wipe ⟨"out"⟩ oneOfEach usedOutput).1.entryAt ["out", "class-A.html"] ≠
      some (.file bytes) := by
    intro bytes he
    apply (hnamed ["out"] ["class-A.html"] bytes htop (by decide) he .classPage "class-%s.html" ?_).1
    · exact hname
    · decide +kernel
  exact ⟨usedOutput_wellFormed, hok, hdir, rfl, hpage, Prod.ext hsame (htrue rfl)⟩

end Wipe
end DocSite
