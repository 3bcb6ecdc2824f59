import DocSite.Proofs.Path
import DocSite.Proofs.Site.View
import Mathlib.Data.List.Basic

namespace DocSite

namespace RawPath

/-- Relative paths lose nothing but names that are not UTF-8. Below a root the relative path leads
back to the file exactly if it has no such names there. Files without them that have one relative
path are the same place. Two spellings of any place have one relative path, from whatever spelling
of the root, and one source page. -/
theorem relativeTo_restores (root : RawPath) :
    (∀ file, root.Under file →
      ((root.join (ofText (root.relativeTo file))).SamePlace file ↔ root.ReadableBelow file)) ∧
    (∀ file other, root.Under file → root.Under other →
      root.ReadableBelow file → root.ReadableBelow other →
      (root.relativeTo file = root.relativeTo other ↔ file.SamePlace other)) ∧
    ∀ file other, file.SamePlace other → ∀ spelling, root.SamePlace spelling →
      root.relativeTo file = spelling.relativeTo other ∧
      ∀ l : Links,
        l.mirrorPage (root.relativeTo file) = l.mirrorPage (spelling.relativeTo other) := by
  refine ⟨?restores, ?apart, ?spellings⟩
  case restores =>
    intro file hfile
    exact ⟨readableBelow_of_join hfile, join_ofText_relativeTo hfile⟩
  case apart =>
    intro file other hfile hother hnames hnames'
    refine ⟨fun h => ?_, fun h => relativeTo_eq_of_samePlace rfl h⟩
    have hback : (root.join (ofText (root.relativeTo file))).SamePlace file :=
      join_ofText_relativeTo hfile hnames
    rw [h] at hback
    exact hback.symm.trans (join_ofText_relativeTo hother hnames')
  case spellings =>
    intro file other h spelling hroot
    have hsame := relativeTo_eq_of_samePlace hroot h
    exact ⟨hsame, fun l => by rw [hsame]⟩

/-- A root with a name that is no text, and two spellings of a file with a `..` below it. -/
theorem relativeTo_restores_spellings :
    let root : RawPath := ⟨bytesOf "/" ++ 0xff :: bytesOf "/./src/"⟩
    let file : RawPath := ⟨bytesOf "/" ++ 0xff :: bytesOf "//src/../src/A.php"⟩
    let other : RawPath := ⟨bytesOf "/" ++ 0xff :: bytesOf "/src/.././src/A.php/"⟩
    root.Under file ∧ root.ReadableBelow file ∧ root.Under other ∧ root.ReadableBelow other ∧
      (root.join (ofText (root.relativeTo file))).SamePlace file ∧ file.SamePlace other ∧
      root.relativeTo file = root.relativeTo other ∧
      ∀ l : Links, l.mirrorPage (root.relativeTo file) = l.mirrorPage (root.relativeTo other) := by
  intro root file other
  have hfile : root.Under file := by decide
  have hother : root.Under other := by decide
  have hsame : file.SamePlace other := by decide
  obtain ⟨hback, hapart, hspelled⟩ := relativeTo_restores root
  have hnames : root.ReadableBelow file :=
    readableBelow_of_join (s := "../src/A.php") hfile (by decide)
  have hnames' : root.ReadableBelow other :=
    readableBelow_of_join (s := "../src/A.php") hother (by decide)
  exact ⟨hfile, hnames, hother, hnames', (hback file hfile).2 hnames, hsame,
    (hapart file other hfile hother hnames hnames').2 hsame, (hspelled file other hsame root rfl).2⟩

/-- Two files whose names are no text have one relative path, and it leads back to neither. -/
theorem relativeTo_loses_names :
    let root : RawPath := .ofText "/r"
    let file : RawPath := ⟨bytesOf "/r/" ++ 0xff :: bytesOf ".php"⟩
    let other : RawPath := ⟨bytesOf "/r/" ++ 0xfe :: bytesOf ".php"⟩
    root.Under file ∧ root.Under other ∧
      root.relativeTo file = "\ufffd.php" ∧ root.relativeTo other = "\ufffd.php" ∧
      ¬file.SamePlace other ∧ ¬(root.join (ofText (root.relativeTo file))).SamePlace file ∧
      ¬(root.join (ofText (root.relativeTo other))).SamePlace other := by
  intro root file other
  -- the first byte of the name starts no character
  have hshown : ∀ b, (b = 0xff ∨ b = 0xfe) →
      shown (.name [b, 0x2e, 0x70, 0x68, 0x70]) = "\ufffd.php" := by
    intro b hb
    have hinvalid : ¬[b, 0x2e, 0x70, 0x68, 0x70].toByteArray.IsValidUTF8 := by
      rcases hb with rfl | rfl <;> decide
    have hread : Text.lossyChars [b, 0x2e, 0x70, 0x68, 0x70] = "\ufffd.php".toList := by
      rcases hb with rfl | rfl <;>
        simp [Text.lossyChars, Text.leadByte?, Text.replacement]
    rw [shown, PathAlphabet.text, Text.ofBytes_of_not_isValidUTF8 hinvalid, hread,
      String.ofList_toList]
  have hfile : root.relativeTo file = "\ufffd.php" := by
    have hbelow : alphabet.below root.bytes file.bytes =
        [.name [0xff, 0x2e, 0x70, 0x68, 0x70]] := by decide
    rw [relativeTo, hbelow, List.map_singleton, hshown _ (.inl rfl), Text.joinWith,
      String.ofList_toList]
  have hother : root.relativeTo other = "\ufffd.php" := by
    have hbelow : alphabet.below root.bytes other.bytes =
        [.name [0xfe, 0x2e, 0x70, 0x68, 0x70]] := by decide
    rw [relativeTo, hbelow, List.map_singleton, hshown _ (.inr rfl), Text.joinWith,
      String.ofList_toList]
  have hlost : ¬(root.join (ofText "\ufffd.php")).SamePlace file ∧
      ¬(root.join (ofText "\ufffd.php")).SamePlace other := by decide
  rw [hfile, hother]
  exact ⟨by decide, by decide, rfl, rfl, by decide, hlost⟩

end RawPath

namespace Path

variable {p root file : Path}

/-- A file lies below a root: its components begin with those of the root. -/
def Under (root file : Path) : Prop := root.components <+: file.components

instance (root file : Path) : Decidable (root.Under file) :=
  inferInstanceAs (Decidable (root.components <+: file.components))

theorem toList_join (p q : Path) :
    (p.join q).text.toList = alphabet.join p.text.toList q.text.toList := by
  have hsep : alphabet.separator = '/' := rfl
  rw [PathAlphabet.join, hsep]
  cases habs : q.isAbsolute with
  | true =>
    have hhead : q.text.toList.head? = some '/' := by simpa [isAbsolute] using habs
    rw [join_of_isAbsolute habs, if_pos (.inl hhead)]
  | false =>
    have hhead : q.text.toList.head? ≠ some '/' := by simpa [isAbsolute] using habs
    by_cases hp : p.text = ""
    · simp [join, hp]
    · have hne : p.text.toList ≠ [] := by simpa using hp
      rw [join_of_relative hp habs, if_neg (not_or.2 ⟨hhead, hne⟩)]
      split
      · exact String.toList_append
      · simp

theorem raw_join (p q : Path) : (p.join q).raw = p.raw.join q.raw := by
  rw [raw, RawPath.ofText, bytesOf_eq, toList_join, ← RawPath.encoding.join_flatMap,
    ← bytesOf_eq, ← bytesOf_eq]
  rfl

theorem under_raw_iff : root.raw.Under file.raw ↔ root.Under file := by
  rw [RawPath.Under, raw, raw, RawPath.components_ofText, RawPath.components_ofText, Under]
  exact List.prefix_map_iff_of_injective RawPath.encoding.map_injective

/-- The names in a text path are UTF-8, so nothing is lost between text paths. -/
theorem samePlace_join_relativeTo (h : root.Under file) :
    (root.join ⟨root.relativeTo file⟩).SamePlace file := by
  have hunder : root.raw.Under file.raw := under_raw_iff.2 h
  have hnames : root.raw.ReadableBelow file.raw := by
    obtain ⟨rest, hrest⟩ := hunder
    intro c hc
    rw [PathAlphabet.below_of_append hrest.symm] at hc
    exact RawPath.isValidUTF8_of_mem_components (hrest ▸ List.mem_append_right _ hc)
  rw [← samePlace_raw_iff, raw_join]
  exact RawPath.join_ofText_relativeTo hunder hnames

theorem relativeTo_of_not_under (h : ¬root.Under file) :
    root.relativeTo file = String.ofList (alphabet.written file.components) := by
  rw [relativeTo_eq, PathAlphabet.below_of_outside h, components]

/-- A path in normal form: no separator is repeated or stands at the end, and no segment is a
single point. The root itself is in normal form. -/
structure Normal (p : Path) : Prop where
  no_repeat : ¬['/', '/'] <:+: p.text.toList
  no_end : p.text = "/" ∨ p.text.toList.getLast? ≠ some '/'
  no_here : "." ∉ p.segments

/-- Behind the root there is nothing to normalise either. -/
theorem Normal.written_inner {s : List Char} (h : p.Normal) (hs : p.text.toList = '/' :: s)
    (hne : s ≠ []) : alphabet.written (alphabet.inner s) = s := by
  obtain ⟨hrepeat, hend, hhere⟩ := h
  have htext : p.text ≠ "/" := by
    intro h
    simp [h, hne.symm] at hs
  have hlast := hend.resolve_left htext
  have hno : ['.'] ∉ Text.splitAll '/' p.text.toList := fun h => hhere (List.mem_map_of_mem h)
  rw [hs] at hrepeat hlast hno
  apply PathAlphabet.written_inner
  · exact fun h => hrepeat (h.trans (List.suffix_cons '/' s).isInfix)
  · rwa [List.getLast?_cons_of_ne_nil hne] at hlast
  · intro hhead
    obtain ⟨s, rfl⟩ := List.head?_eq_some_iff.1 hhead
    exact hrepeat ⟨[], s, rfl⟩
  · rw [Text.splitAll_cons_self] at hno
    exact fun h => hno (.tail _ h)

/-- The components of a path in normal form give back its text, with a second separator behind the
root. -/
theorem written_components_of_normal (h : p.Normal) :
    String.ofList (alphabet.written p.components) =
      if p.isAbsolute = true ∧ p.text ≠ "/" then "/" ++ p.text else p.text := by
  rw [← String.toList_inj, String.toList_ofList]
  by_cases habs : p.text.toList.head? = some '/'
  · have habsolute : p.isAbsolute = true := by simp [isAbsolute, habs]
    obtain ⟨s, hs⟩ := List.head?_eq_some_iff.1 habs
    have hcomponents : p.components = .root :: alphabet.inner s := by
      rw [components, hs]
      exact PathAlphabet.parts_separator_cons s
    by_cases hroot : s = []
    · have htext : p.text = "/" := by rw [← String.toList_inj, hs, hroot]; rfl
      rw [if_neg fun h => h.2 htext, hcomponents, hs, hroot]
      rfl
    · have htext : p.text ≠ "/" := by
        intro h
        simp [h, hroot] at hs
      have hback := h.written_inner hs hroot
      rw [if_pos ⟨habsolute, htext⟩, hcomponents]
      cases hinner : alphabet.inner s with
      | nil =>
        rw [hinner] at hback
        exact absurd hback.symm hroot
      | cons c cs =>
        rw [PathAlphabet.written_cons_cons, ← hinner, hback, String.toList_append, hs]
        rfl
  · have hrelative : p.isAbsolute = false := by simpa [isAbsolute] using habs
    have hlast : p.text.toList.getLast? ≠ some '/' := by
      refine h.no_end.elim (fun h => ?_) id
      simp [h] at habs
    have hno : ['.'] ∉ Text.splitAll '/' p.text.toList := fun hmem =>
      h.no_here (List.mem_map_of_mem hmem)
    have hplain : p.components = alphabet.inner p.text.toList :=
      PathAlphabet.parts_of_plain habs hno
    rw [if_neg (by simp [hrelative]), hplain, PathAlphabet.written_inner h.no_repeat hlast habs hno]

/-- A file in normal form that lies outside the root has its own text as its relative path if it is
relative, or the root directory; any other absolute file gets a second separator at its start. -/
theorem relativeTo_of_outside (hnormal : file.Normal) (houtside : ¬root.Under file) :
    (root.relativeTo file =
      if file.isAbsolute = true ∧ file.text ≠ "/" then "/" ++ file.text else file.text) ∧
    (root.relativeTo file = file.text ↔ file.isAbsolute = false ∨ file.text = "/") := by
  have hrender := written_components_of_normal hnormal
  rw [← relativeTo_of_not_under houtside] at hrender
  refine ⟨hrender, ?_⟩
  rw [hrender]
  split
  · rename_i habs
    simp [habs.1, habs.2, ← String.toList_inj]
  · rename_i hrel
    refine iff_of_true rfl ?_
    by_cases habs : file.isAbsolute = true
    · exact .inr (not_not.1 fun h => hrel ⟨habs, h⟩)
    · exact .inl (Bool.eq_false_iff.2 habs)

/-- A relative file outside the root stands as it was given. -/
theorem relativeTo_of_outside_shared :
    let root : Path := ⟨"src"⟩
    let file : Path := ⟨"../lib/A.php"⟩
    file.Normal ∧ ¬root.Under file ∧ root.relativeTo file = "../lib/A.php" := by
  intro root file
  have hnormal : file.Normal := ⟨mt Text.hasWord_iff.2 (by decide), by decide, by decide⟩
  have houtside : ¬root.Under file := by decide
  exact ⟨hnormal, houtside, (relativeTo_of_outside hnormal houtside).2.2 (.inl (by decide))⟩

/-- An absolute file outside the root does not. -/
theorem relativeTo_other_doubles_separator :
    let root : Path := ⟨"/project/src"⟩
    let file : Path := ⟨"/other/A.php"⟩
    file.Normal ∧ ¬root.Under file ∧ root.relativeTo file = "//other/A.php" := by
  have hnormal : Normal ⟨"/other/A.php"⟩ :=
    ⟨mt Text.hasWord_iff.2 (by decide), by decide, by decide⟩
  refine ⟨hnormal, by decide, ?_⟩
  rw [relativeTo_eq]
  decide

end DocSite.Path
