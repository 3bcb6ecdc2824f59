import DocSite.Proofs.Site.Groups
import DocSite.Proofs.Site.Token
import DocSite.Proofs.Text.ByteOrder

namespace DocSite.Text
open Std

def lowerByte (b : UInt8) : UInt8 := if 65 ≤ b.toNat ∧ b.toNat ≤ 90 then b + 32 else b

def lowerBytes (s : String) : List UInt8 := (bytesOf s).map lowerByte

theorem utf8EncodeChar_ascii {c : Char} (h : c.toNat ≤ 0x7f) :
    String.utf8EncodeChar c = [.ofNat c.toNat] := by
  rw [String.utf8EncodeChar, Char.toNat_val, if_pos h]

theorem toNat_toLower (c : Char) : c.toLower.toNat =
    if 65 ≤ c.toNat ∧ c.toNat ≤ 90 then c.toNat + 32 else c.toNat := by
  have hcapital : (c.val ≥ 'A'.val ∧ c.val ≤ 'Z'.val) ↔ 65 ≤ c.toNat ∧ c.toNat ≤ 90 := by
    rw [ge_iff_le, UInt32.le_iff_toNat_le, UInt32.le_iff_toNat_le]
    rfl
  unfold Char.toLower
  split
  · rename_i h
    have hle := (hcapital.1 h).2
    have hsum : (c.val + ('a'.val - 'A'.val)).toNat = (c.toNat + 32) % 2 ^ 32 :=
      UInt32.toNat_add c.val ('a'.val - 'A'.val)
    rw [if_pos (hcapital.1 h), ← Char.toNat_val, hsum]
    omega
  · rename_i h
    rw [if_neg (fun hc => h (hcapital.2 hc))]

theorem toLower_eq_self {c : Char} (h : ¬(65 ≤ c.toNat ∧ c.toNat ≤ 90)) : c.toLower = c := by
  apply Char.toNat_inj.1
  rw [toNat_toLower, if_neg h]

theorem map_lowerByte_utf8EncodeChar (c : Char) :
    (String.utf8EncodeChar c).map lowerByte = String.utf8EncodeChar c.toLower := by
  by_cases h : 65 ≤ c.toNat ∧ c.toNat ≤ 90
  · have hlower : c.toLower.toNat = c.toNat + 32 := by rw [toNat_toLower, if_pos h]
    have hbyte : (UInt8.ofNat c.toNat).toNat = c.toNat :=
      UInt8.toNat_ofNat_of_lt' (Nat.lt_of_le_of_lt h.2 (by decide))
    rw [utf8EncodeChar_ascii (by omega), utf8EncodeChar_ascii (by omega), List.map_singleton,
      lowerByte, hbyte, if_pos h, hlower, UInt8.ofNat_add]
    rfl
  · -- no byte of another character is that of a capital letter
    have hkeep : ∀ b ∈ String.utf8EncodeChar c, lowerByte b = id b := by
      intro b hb
      refine if_neg fun hcapital => ?_
      by_cases hc : c.toNat ≤ 0x7f
      · rw [utf8EncodeChar_ascii hc, List.mem_singleton] at hb
        rw [hb, UInt8.toNat_ofNat_of_lt' (Nat.lt_of_le_of_lt hc (by decide))] at hcapital
        exact h hcapital
      · have hbyte := le_of_mem_utf8EncodeChar (by omega) b hb
        omega
    rw [toLower_eq_self h, List.map_congr_left hkeep, List.map_id]

theorem lowerBytes_eq (s : String) :
    lowerBytes s = (foldCase s.toList).flatMap String.utf8EncodeChar := by
  rw [lowerBytes, bytesOf_eq, List.map_flatMap, foldCase, List.flatMap_map]
  exact congrArg (List.flatMap · _) (funext map_lowerByte_utf8EncodeChar)

/-- Names are in the order of their bytes in lower case, then of their bytes. -/
theorem compareNames_eq_compareBytes (a b : String) : compareNames a b =
    (compareBytes (lowerBytes a) (lowerBytes b)).then (compareBytes (bytesOf a) (bytesOf b)) := by
  rw [compareNames, compareText, compareChars_eq_compareBytes, compareChars_eq_compareBytes,
    ← lowerBytes_eq, ← lowerBytes_eq, ← bytesOf_eq, ← bytesOf_eq]

instance lawfulEqCmp_byte : LawfulEqCmp (compareOn UInt8.toNat) where
  eq_of_compare h := UInt8.toNat_inj.1 (Nat.compare_eq_eq.1 h)

instance lawfulEqCmp_compareBytes : LawfulEqCmp compareBytes :=
  inferInstanceAs (LawfulEqCmp (List.compareLex (compareOn UInt8.toNat)))

/-- Names with different forms in lower case are in the order of these forms. -/
theorem compareNames_of_lowerBytes_ne {a b : String} (h : lowerBytes a ≠ lowerBytes b) :
    compareNames a b = compareBytes (lowerBytes a) (lowerBytes b) := by
  rw [compareNames_eq_compareBytes]
  cases hcmp : compareBytes (lowerBytes a) (lowerBytes b) with
  | lt => rfl
  | gt => rfl
  | eq => exact absurd (LawfulEqCmp.eq_of_compare hcmp) h

variable {names names' sorted kept : List String} {P : String → Prop} {a b : String}

theorem eq_of_isLE (hab : (compareNames a b).isLE) (hba : (compareNames b a).isLE) : a = b :=
  LawfulEqCmp.eq_of_compare (OrientedCmp.isLE_antisymm hab hba)

theorem isLE_total (a b : String) : (compareNames a b).isLE ∨ (compareNames b a).isLE := by
  have hswap : compareNames b a = (compareNames a b).swap := OrientedCmp.eq_swap
  rw [hswap]
  cases compareNames a b <;> decide

/-- There is one way to put names in ascending order. -/
theorem eq_of_perm_of_pairwise (hperm : names.Perm sorted)
    (hnames : names.Pairwise fun a b => (compareNames a b).isLE)
    (hsorted : sorted.Pairwise fun a b => (compareNames a b).isLE) : names = sorted :=
  hperm.eq_of_pairwise (fun _ _ _ _ => eq_of_isLE) hnames hsorted

theorem eq_sortNames_iff : sorted = sortNames names ↔
    sorted.Perm names ∧ sorted.Pairwise fun a b => (compareNames a b).isLE := by
  have hperm : (sortNames names).Perm names := List.mergeSort_perm ..
  constructor
  · intro h
    rw [h]
    exact ⟨hperm, pairwise_sortNames⟩
  · intro ⟨h, hsorted⟩
    exact eq_of_perm_of_pairwise (h.trans hperm.symm) hsorted pairwise_sortNames

/-- There is one way to list the names with a property in ascending order, each once. -/
theorem Enumerates.unique (h : Enumerates names P) (hkept : Enumerates kept P) : names = kept := by
  have hle : ∀ a b, compareNames a b = .lt → (compareNames a b).isLE := by
    intro a b hlt
    rw [hlt]
    rfl
  have hperm : names.Perm kept := by
    refine (List.perm_ext_iff_of_nodup h.nodup hkept.nodup).2 fun name => ?_
    rw [h.mem_iff, hkept.mem_iff]
  exact eq_of_perm_of_pairwise hperm (h.ascending.imp (hle _ _)) (hkept.ascending.imp (hle _ _))

theorem sortNames_eq_iff_perm : sortNames names = sortNames names' ↔ names.Perm names' := by
  have hsorted := eq_sortNames_iff.1 (Eq.refl (sortNames names))
  constructor
  · intro h
    exact hsorted.1.symm.trans (eq_sortNames_iff.1 h).1
  · intro h
    exact eq_sortNames_iff.2 ⟨hsorted.1.trans h, hsorted.2⟩

theorem enumerates_dropRepeats (names : List String) :
    Enumerates (dropRepeats (sortNames names)) (· ∈ names) where
  ascending := pairwise_dropRepeats pairwise_sortNames
  mem_iff name := by rw [mem_dropRepeats, sortNames, List.mem_mergeSort]

theorem eq_dropRepeats_iff : kept = dropRepeats (sortNames names) ↔
    Enumerates kept (· ∈ names) := by
  constructor
  · rintro rfl
    exact enumerates_dropRepeats names
  · intro h
    exact h.unique (enumerates_dropRepeats names)

/-- The order of names is that of their bytes in lower case, then of their bytes. It is total, and
only the same name is neither before nor after a name. So names have one ascending order, which is
the sorted one whatever order they came in. Without neighbours that are equal it has each name once,
and it is the only list in strictly ascending order that has just these names. -/
theorem order_of_names :
    (∀ a b, compareNames a b =
      (compareBytes (lowerBytes a) (lowerBytes b)).then (compareBytes (bytesOf a) (bytesOf b))) ∧
    (∀ a b, lowerBytes a ≠ lowerBytes b →
      compareNames a b = compareBytes (lowerBytes a) (lowerBytes b)) ∧
    (∀ a b, compareNames a b = .eq ↔ a = b) ∧
    (∀ a b, compareNames b a = (compareNames a b).swap) ∧
    (∀ a b, (compareNames a b).isLE → (compareNames b a).isLE → a = b) ∧
    (∀ a b c, (compareNames a b).isLE → (compareNames b c).isLE → (compareNames a c).isLE) ∧
    (∀ a b, (compareNames a b).isLE ∨ (compareNames b a).isLE) ∧
    (∀ names sorted, sorted = sortNames names ↔
      sorted.Perm names ∧ sorted.Pairwise fun a b => (compareNames a b).isLE) ∧
    (∀ names names', sortNames names = sortNames names' ↔ names.Perm names') ∧
    (∀ names kept, kept = dropRepeats (sortNames names) ↔ Enumerates kept (· ∈ names)) ∧
    ∀ names, (dropRepeats (sortNames names)).Nodup := by
  refine ⟨compareNames_eq_compareBytes, ?_, ?_, ?_, ?_, ?_, isLE_total, ?_, ?_, ?_, ?_⟩
  · exact fun a b => compareNames_of_lowerBytes_ne
  · exact fun a b => LawfulEqCmp.compare_eq_iff_eq
  · exact fun a b => OrientedCmp.eq_swap
  · exact fun a b => eq_of_isLE
  · exact fun a b c => TransCmp.isLE_trans
  · exact fun names sorted => eq_sortNames_iff
  · exact fun names names' => sortNames_eq_iff_perm
  · exact fun names kept => eq_dropRepeats_iff
  · exact fun names => (enumerates_dropRepeats names).nodup

/-- A beginning comes first, capital letters first among names that differ in nothing else, and only
ASCII has letters in lower case. -/
example : compareNames "ab" "ABC" = .lt ∧ compareNames "A" "a" = .lt ∧
    compareNames "B" "a" = .gt ∧ compareNames "é" "É" = .gt := by decide

end DocSite.Text
