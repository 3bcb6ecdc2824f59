import DocSite.Path
import DocSite.Proofs.PathPart

namespace DocSite

theorem bytesOf_eq (s : String) : bytesOf s = s.toList.flatMap String.utf8EncodeChar := by
  have h : s.toUTF8 = s.toList.utf8Encode := by
    rw [← String.toByteArray_ofList, String.ofList_toList]
    rfl
  rw [bytesOf, h, List.utf8Encode, List.toList_data_toByteArray]

theorem toNat_ofUInt8 (b : UInt8) : (Char.ofUInt8 b).toNat = b.toNat := UInt8.toNat_toUInt32 b

/-- All bytes of a character outside ASCII are outside ASCII. -/
theorem le_of_mem_utf8EncodeChar {c : Char} (h : 128 ≤ c.toNat) :
    ∀ b ∈ String.utf8EncodeChar c, 128 ≤ b.toNat := by
  intro b hb
  simp only [String.utf8EncodeChar, Char.toNat_val] at hb
  split at hb
  · omega
  -- the first byte is at least 192, and each that follows is 128 and its six bits
  split at hb
  · simp only [List.mem_cons, List.not_mem_nil, or_false] at hb
    rcases hb with rfl | rfl <;> rw [UInt8.toNat_ofNat'] <;> omega
  split at hb <;> simp only [List.mem_cons, List.not_mem_nil, or_false] at hb
  · rcases hb with rfl | rfl | rfl <;> rw [UInt8.toNat_ofNat'] <;> omega
  · rcases hb with rfl | rfl | rfl | rfl <;> rw [UInt8.toNat_ofNat'] <;> omega

theorem ofUInt8_toUInt8 {c : Char} (h : c.toNat < 128) : Char.ofUInt8 c.val.toUInt8 = c := by
  have hlt : c.val.toNat < 256 := Nat.lt_trans h (by decide)
  apply Char.toNat_inj.1
  rw [toNat_ofUInt8, UInt32.toNat_toUInt8, Nat.mod_eq_of_lt hlt, Char.toNat_val]

theorem bytesOf_injective : Function.Injective bytesOf := by
  intro a b h
  apply String.toByteArray_inj.1
  rw [← String.toUTF8_eq_toByteArray, ← String.toUTF8_eq_toByteArray]
  exact ByteArray.ext (Array.toList_inj.1 h)

theorem toByteArray_bytesOf (s : String) : (bytesOf s).toByteArray = s.toUTF8 := by
  apply ByteArray.ext
  apply Array.toList_inj.1
  rw [List.toList_data_toByteArray, bytesOf]

theorem Text.ofBytes_bytesOf (s : String) : Text.ofBytes (bytesOf s).toByteArray = s := by
  have hread : String.fromUTF8? s.toUTF8 = some s := by
    rw [String.fromUTF8?, String.toUTF8_eq_toByteArray, dif_pos s.isValidUTF8]
    rfl
  rw [toByteArray_bytesOf, Text.ofBytes, hread, Option.getD_some]

theorem Text.ofBytes_of_not_isValidUTF8 {bytes : List UInt8}
    (h : ¬bytes.toByteArray.IsValidUTF8) :
    Text.ofBytes bytes.toByteArray = String.ofList (Text.lossyChars bytes) := by
  rw [Text.ofBytes, String.fromUTF8?, dif_neg h, Option.getD_none, List.toList_data_toByteArray]

theorem isValidUTF8_iff {bytes : List UInt8} :
    bytes.toByteArray.IsValidUTF8 ↔ ∃ s, bytes = bytesOf s := by
  constructor
  · intro h
    refine ⟨String.fromUTF8 _ h, ?_⟩
    rw [bytesOf, String.toUTF8_eq_toByteArray]
    exact List.toList_data_toByteArray.symm
  · rintro ⟨s, rfl⟩
    rw [toByteArray_bytesOf, String.toUTF8_eq_toByteArray]
    exact s.isValidUTF8

namespace RawPath

variable {root file other : RawPath} {c : PathPart UInt8}

/-- A byte of ASCII stands only for its own character. -/
theorem eq_of_mem_utf8EncodeChar {x y : Char} (hy : y.toNat < 128)
    (h : y.val.toUInt8 ∈ String.utf8EncodeChar x) : x = y := by
  by_cases hx : x.toNat < 128
  · have hsize : x.utf8Size = 1 := Char.utf8Size_eq_one_iff.2 (Nat.le_of_lt_succ hx)
    rw [String.utf8EncodeChar_eq_singleton hsize, List.mem_singleton] at h
    rw [← ofUInt8_toUInt8 hx, ← ofUInt8_toUInt8 hy, h]
  · have hle := le_of_mem_utf8EncodeChar (Nat.not_lt.1 hx) _ h
    rw [← toNat_ofUInt8, ofUInt8_toUInt8 hy] at hle
    omega

/-- A text path is written with the bytes of its letters. -/
theorem encoding : Path.alphabet.Encoding alphabet String.utf8EncodeChar where
  separator := by decide
  point := by decide
  eq_separator x hx := eq_of_mem_utf8EncodeChar (y := '/') (by decide) hx
  injective := by
    intro s t h
    have hbytes : bytesOf (String.ofList s) = bytesOf (String.ofList t) := by
      rw [bytesOf_eq, bytesOf_eq, String.toList_ofList, String.toList_ofList]
      exact h
    exact String.ofList_injective (bytesOf_injective hbytes)

theorem components_ofText (s : String) : (ofText s).components =
    (Path.components ⟨s⟩).map (PathPart.map (·.flatMap String.utf8EncodeChar)) := by
  rw [components, ofText, bytesOf_eq]
  exact encoding.parts_flatMap s.toList

theorem isValidUTF8_of_mem_components {s : String} (h : c ∈ (ofText s).components) :
    (alphabet.text c).toByteArray.IsValidUTF8 := by
  rw [components_ofText] at h
  obtain ⟨d, -, rfl⟩ := List.mem_map.1 h
  rw [isValidUTF8_iff]
  refine ⟨String.ofList (Path.alphabet.text d), ?_⟩
  rw [encoding.text_map, bytesOf_eq, String.toList_ofList]

theorem bytesOf_shown (h : (alphabet.text c).toByteArray.IsValidUTF8) :
    bytesOf (shown c) = alphabet.text c := by
  obtain ⟨s, hs⟩ := isValidUTF8_iff.1 h
  rw [shown, hs, Text.ofBytes_bytesOf]

theorem bytesOf_joinWith (parts : List (List Char)) :
    bytesOf (String.ofList (Text.joinWith ['/'] parts)) =
      Text.joinWith [0x2f] (parts.map (·.flatMap String.utf8EncodeChar)) := by
  rw [bytesOf_eq, String.toList_ofList]
  induction parts with
  | nil => rfl
  | cons part parts ih =>
    cases parts with
    | nil => rfl
    | cons next parts =>
      have hslash : ['/'].flatMap String.utf8EncodeChar = [0x2f] := by decide
      rw [List.map_cons] at ih
      rw [Text.joinWith_cons_cons, List.flatMap_append, List.flatMap_append, ih, hslash,
        List.map_cons, List.map_cons, Text.joinWith_cons_cons]

/-- The names of `file` below `root` are UTF-8. -/
def ReadableBelow (root file : RawPath) : Prop :=
  ∀ c ∈ alphabet.below root.bytes file.bytes, (alphabet.text c).toByteArray.IsValidUTF8

theorem bytesOf_relativeTo (h : root.ReadableBelow file) :
    bytesOf (root.relativeTo file) = alphabet.written (alphabet.below root.bytes file.bytes) := by
  rw [relativeTo, bytesOf_joinWith, List.map_map]
  refine congrArg (Text.joinWith [0x2f]) (List.map_congr_left fun c hc => ?_)
  rw [Function.comp_apply, ← bytesOf_eq, bytesOf_shown (h c hc)]

theorem relativeTo_eq_of_samePlace {spelling : RawPath} (hroot : root.SamePlace spelling)
    (hfile : file.SamePlace other) : root.relativeTo file = spelling.relativeTo other := by
  have hroot : alphabet.parts root.bytes = alphabet.parts spelling.bytes := hroot
  have hfile : alphabet.parts file.bytes = alphabet.parts other.bytes := hfile
  rw [relativeTo, PathAlphabet.below, hroot, hfile, relativeTo, PathAlphabet.below]

/-- A file lies below a root: its components begin with those of the root. -/
def Under (root file : RawPath) : Prop := root.components <+: file.components

instance (root file : RawPath) : Decidable (root.Under file) :=
  inferInstanceAs (Decidable (root.components <+: file.components))

theorem join_ofText_relativeTo (h : root.Under file) (hnames : root.ReadableBelow file) :
    (root.join (ofText (root.relativeTo file))).SamePlace file := by
  rw [SamePlace, components, join, ofText, bytesOf_relativeTo hnames]
  exact PathAlphabet.parts_join_below h

theorem readableBelow_of_join {s : String} (h : root.Under file)
    (hback : (root.join (ofText s)).SamePlace file) : root.ReadableBelow file := by
  obtain ⟨rest, hrest⟩ := h
  have hbelow : alphabet.below root.bytes file.bytes = rest :=
    PathAlphabet.below_of_append hrest.symm
  intro c hc
  rw [hbelow] at hc
  apply isValidUTF8_of_mem_components (s := s)
  have hback : alphabet.parts (alphabet.join root.bytes (bytesOf s)) = file.components := hback
  by_cases hreplaced : (bytesOf s).head? = some alphabet.separator ∨ root.bytes = []
  · rw [PathAlphabet.join, if_pos hreplaced, ← hrest] at hback
    have hall : (ofText s).components = root.components ++ rest := hback
    rw [hall]
    exact List.mem_append_right _ hc
  · obtain ⟨hrelative, hroot⟩ := not_or.1 hreplaced
    rw [PathAlphabet.parts_join hroot hrelative, ← hrest] at hback
    have hinner : alphabet.inner (bytesOf s) = rest := List.append_cancel_left hback
    exact List.mem_append_right _ (hinner ▸ hc)

end RawPath

namespace Path

/-- Between text paths nothing is lost: the relative path is written from the letters. -/
theorem relativeTo_eq (root file : Path) : root.relativeTo file =
    String.ofList (alphabet.written (alphabet.below root.text.toList file.text.toList)) := by
  rw [relativeTo, RawPath.relativeTo, raw, raw, RawPath.ofText, RawPath.ofText, bytesOf_eq,
    bytesOf_eq, RawPath.encoding.below_flatMap, List.map_map, PathAlphabet.written]
  refine congrArg (fun texts => String.ofList (Text.joinWith ['/'] texts))
    (List.map_congr_left fun c _ => ?_)
  have htext : RawPath.alphabet.text (c.map (·.flatMap String.utf8EncodeChar)) =
      bytesOf (String.ofList (alphabet.text c)) := by
    rw [RawPath.encoding.text_map, bytesOf_eq, String.toList_ofList]
  rw [Function.comp_apply, RawPath.shown, htext, Text.ofBytes_bytesOf, String.toList_ofList]

theorem samePlace_raw_iff {p q : Path} : p.raw.SamePlace q.raw ↔ p.SamePlace q := by
  rw [RawPath.SamePlace, raw, raw, RawPath.components_ofText, RawPath.components_ofText, SamePlace]
  exact (List.map_injective_iff.2 RawPath.encoding.map_injective).eq_iff

end Path
end DocSite
