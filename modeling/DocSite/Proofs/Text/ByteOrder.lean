import DocSite.Text.NameOrder
import Mathlib.Algebra.Group.Nat.Defs

namespace DocSite.Text
open Std

theorem compare_add_right (m n k : Nat) : compare (m + k) (n + k) = compare m n := by
  rcases Nat.lt_trichotomy m n with h | h | h
  · rw [Nat.compare_eq_lt.2 h, Nat.compare_eq_lt.2 (Nat.add_lt_add_right h k)]
  · rw [h, Nat.compare_eq_eq.2 rfl, Nat.compare_eq_eq.2 rfl]
  · rw [Nat.compare_eq_gt.2 h, Nat.compare_eq_gt.2 (Nat.add_lt_add_right h k)]

/-- Numbers are in the order of their quotients by a base, and of their remainders if these are the
same. -/
theorem compare_div_mod (base m n : Nat) :
    (compare (m / base) (n / base)).then (compare (m % base) (n % base)) = compare m n := by
  rcases Nat.lt_trichotomy (m / base) (n / base) with h | h | h
  · rw [Nat.compare_eq_lt.2 h, Nat.compare_eq_lt.2 (Nat.lt_of_div_lt_div h)]
    rfl
  · have hm : m = m % base + base * (m / base) := (Nat.mod_add_div m base).symm
    have hn : n = n % base + base * (m / base) := by rw [h, Nat.mod_add_div]
    rw [Nat.compare_eq_eq.2 h, Ordering.eq_then, ← compare_add_right, ← hm, ← hn]
  · rw [Nat.compare_eq_gt.2 h, Nat.compare_eq_gt.2 (Nat.lt_of_div_lt_div h)]
    rfl

/-- Compares bytes one by one; what is a beginning of the other comes first. -/
def compareBytes : List UInt8 → List UInt8 → Ordering := List.compareLex (compareOn UInt8.toNat)

theorem compareBytes_cons (x y : UInt8) (s t : List UInt8) :
    compareBytes (x :: s) (y :: t) = (compare x.toNat y.toNat).then (compareBytes s t) :=
  List.compareLex_cons_cons

/-- The last digits of a number in base 64, as the bytes of a UTF-8 form that follow the first. -/
def continuation (n : Nat) : Nat → List UInt8
  | 0 => []
  | k + 1 => .ofNat (n / 64 ^ k % 64 + 128) :: continuation n k

/-- Digits are in the order of the numbers that they write. -/
theorem compareBytes_continuation (m n k : Nat) (s t : List UInt8) :
    compareBytes (continuation m k ++ s) (continuation n k ++ t) =
      (compare (m % 64 ^ k) (n % 64 ^ k)).then (compareBytes s t) := by
  induction k with
  | zero => simp [continuation, Nat.mod_one, ReflCmp.compare_self]
  | succ k ih =>
    have hhigh : ∀ a, a % 64 ^ (k + 1) / 64 ^ k = a / 64 ^ k % 64 := by
      intro a
      rw [Nat.pow_succ, Nat.mod_mul_right_div_self]
    have hbyte : ∀ a, (UInt8.ofNat (a / 64 ^ k % 64 + 128)).toNat =
        a % 64 ^ (k + 1) / 64 ^ k + 128 := by
      intro a
      rw [hhigh, UInt8.toNat_ofNat']
      omega
    have hlow : ∀ a, a % 64 ^ k = a % 64 ^ (k + 1) % 64 ^ k := by
      intro a
      rw [Nat.mod_mod_of_dvd a (Nat.pow_dvd_pow 64 (Nat.le_succ k))]
    rw [continuation, continuation, List.cons_append, List.cons_append, compareBytes_cons, ih,
      hbyte, hbyte, compare_add_right, hlow m, hlow n, ← Ordering.then_assoc, compare_div_mod]

/-- How many bytes follow the first one in the UTF-8 form of a code point. -/
def following (n : Nat) : Nat :=
  if n ≤ 0x7f then 0 else if n ≤ 0x7ff then 1 else if n ≤ 0xffff then 2 else 3

/-- The bits by which a first byte tells how many bytes follow. -/
def lengthMark : Nat → Nat
  | 0 => 0
  | 1 => 0xc0
  | 2 => 0xe0
  | _ => 0xf0

def firstByte (n : Nat) : Nat := n / 64 ^ following n + lengthMark (following n)

theorem toNat_lt (c : Char) : c.toNat < 0x110000 := by
  rcases c.valid with h | ⟨-, h⟩
  · exact Nat.lt_trans h (by decide)
  · exact h

theorem following_cases (n : Nat) :
    (following n = 0 ∧ n ≤ 0x7f ∧ firstByte n = n) ∨
    (following n = 1 ∧ 0x7f < n ∧ n ≤ 0x7ff ∧ firstByte n = n / 64 + 0xc0) ∨
    (following n = 2 ∧ 0x7ff < n ∧ n ≤ 0xffff ∧ firstByte n = n / 4096 + 0xe0) ∨
    (following n = 3 ∧ 0xffff < n ∧ firstByte n = n / 262144 + 0xf0) := by
  unfold firstByte following
  split
  · refine .inl ⟨rfl, ‹_›, ?_⟩
    rw [lengthMark, Nat.pow_zero, Nat.div_one, Nat.add_zero]
  split
  · exact .inr (.inl ⟨rfl, by omega, ‹_›, rfl⟩)
  split
  · exact .inr (.inr (.inl ⟨rfl, by omega, ‹_›, rfl⟩))
  · exact .inr (.inr (.inr ⟨rfl, by omega, rfl⟩))

theorem firstByte_lt {n : Nat} (hn : n < 0x110000) : firstByte n < 256 := by
  rcases following_cases n with h | h | h | h <;> omega

/-- A longer form is that of a greater code point, and begins with a greater byte. -/
theorem lt_of_following_lt {m n : Nat} (hm : m < 0x110000) (h : following m < following n) :
    m < n ∧ firstByte m < firstByte n := by
  rcases following_cases m with hm | hm | hm | hm <;>
    rcases following_cases n with hn | hn | hn | hn <;> omega

theorem utf8EncodeChar_eq (c : Char) : String.utf8EncodeChar c =
    .ofNat (firstByte c.toNat) :: continuation c.toNat (following c.toNat) := by
  have hc := toNat_lt c
  simp only [String.utf8EncodeChar, Char.toNat_val]
  rcases following_cases c.toNat with ⟨hk, hle, hfirst⟩ | ⟨hk, hlt, hle, hfirst⟩ |
    ⟨hk, hlt, hle, hfirst⟩ | ⟨hk, hlt, hfirst⟩
  -- the first byte has room for all digits that are left
  · rw [if_pos hle, hk, hfirst]
    rfl
  · have hroom : c.toNat / 64 % 32 = c.toNat / 64 := by omega
    rw [if_neg (Nat.not_le.2 hlt), if_pos hle, hk, hfirst, hroom]
    simp [continuation]
  · have hroom : c.toNat / 4096 % 16 = c.toNat / 4096 := by omega
    rw [if_neg (by omega), if_neg (Nat.not_le.2 hlt), if_pos hle, hk, hfirst, hroom]
    simp [continuation]
  · have hroom : c.toNat / 262144 % 8 = c.toNat / 262144 := by omega
    rw [if_neg (by omega), if_neg (by omega), if_neg (Nat.not_le.2 hlt), hk, hfirst, hroom]
    simp [continuation]

/-- Characters are in the order of their UTF-8 forms, whatever follows them. -/
theorem compareBytes_utf8EncodeChar (c d : Char) (s t : List UInt8) :
    compareBytes (String.utf8EncodeChar c ++ s) (String.utf8EncodeChar d ++ t) =
      (compare c.toNat d.toNat).then (compareBytes s t) := by
  have hfirst : ∀ c : Char, (UInt8.ofNat (firstByte c.toNat)).toNat = firstByte c.toNat :=
    fun c => UInt8.toNat_ofNat_of_lt' (firstByte_lt (toNat_lt c))
  rw [utf8EncodeChar_eq, utf8EncodeChar_eq, List.cons_append, List.cons_append, compareBytes_cons,
    hfirst, hfirst]
  rcases Nat.lt_trichotomy (following c.toNat) (following d.toNat) with h | h | h
  · obtain ⟨hcode, hbyte⟩ := lt_of_following_lt (toNat_lt c) h
    rw [Nat.compare_eq_lt.2 hcode, Nat.compare_eq_lt.2 hbyte]
    rfl
  · rw [h, compareBytes_continuation, ← Ordering.then_assoc, firstByte, firstByte, h,
      compare_add_right, compare_div_mod]
  · obtain ⟨hcode, hbyte⟩ := lt_of_following_lt (toNat_lt d) h
    rw [Nat.compare_eq_gt.2 hcode, Nat.compare_eq_gt.2 hbyte]
    rfl

theorem compareChars_eq_compareBytes (s t : List Char) : compareChars s t =
    compareBytes (s.flatMap String.utf8EncodeChar) (t.flatMap String.utf8EncodeChar) := by
  induction s generalizing t with
  | nil =>
    cases t with
    | nil => rfl
    | cons d t => rw [List.flatMap_cons, utf8EncodeChar_eq]; rfl
  | cons c s ih =>
    cases t with
    | nil => rw [List.flatMap_cons, utf8EncodeChar_eq]; rfl
    | cons d t =>
      rw [List.flatMap_cons, List.flatMap_cons, compareBytes_utf8EncodeChar, compareChars, ih]

end DocSite.Text
