import DocSite.Text.NameOrder

namespace DocSite.Text
open Std

theorem compareChars_eq_compareLex (s t : List Char) :
    compareChars s t = List.compareLex (compareOn Char.toNat) s t := by
  induction s generalizing t with
  | nil => cases t <;> rfl
  | cons c s ih =>
    cases t with
    | nil => rfl
    | cons d t => simp only [compareChars, List.compareLex_cons_cons, ih, compareOn]

theorem compareText_eq_compareLex (a b : String) :
    compareText a b = List.compareLex (compareOn Char.toNat) a.toList b.toList :=
  compareChars_eq_compareLex a.toList b.toList

instance lawfulEqCmp_toNat : LawfulEqCmp (compareOn Char.toNat) where
  eq_of_compare h := Char.toNat_inj.1 (Nat.compare_eq_eq.1 h)

instance : TransCmp compareText where
  eq_swap := by
    intro a b
    simp only [compareText_eq_compareLex]
    exact OrientedCmp.eq_swap
  isLE_trans := by
    intro a b c hab hbc
    simp only [compareText_eq_compareLex] at *
    exact TransCmp.isLE_trans hab hbc

instance : LawfulEqCmp compareText where
  eq_of_compare := by
    intro a b h
    rw [compareText_eq_compareLex] at h
    exact String.toList_injective (LawfulEqCmp.eq_of_compare h)

end DocSite.Text
