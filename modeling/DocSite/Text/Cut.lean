
namespace DocSite.Text

variable {α : Type} [DecidableEq α]

/-- The parts between the occurrences of `c`: one part more than there are occurrences. -/
def splitAll (c : α) : List α → List (List α)
  | [] => [[]]
  | d :: s =>
    if d = c then [] :: splitAll c s
    else match splitAll c s with
      | [] => [[d]]
      | part :: rest => (d :: part) :: rest

def splitFirst (p : Char → Bool) : List Char → Option (List Char × List Char)
  | [] => none
  | c :: s => if p c then some ([], s) else (splitFirst p s).map fun (a, b) => (c :: a, b)

def splitLast (c : Char) (s : List Char) : Option (List Char × List Char) :=
  (splitFirst (· == c) s.reverse).map fun (b, a) => (a.reverse, b.reverse)

def after? : List α → List α → Option (List α)
  | [], s => some s
  | _ :: _, [] => none
  | c :: word, d :: s => if c = d then after? word s else none

def before? (word s : List Char) : Option (List Char) :=
  (after? word.reverse s.reverse).map List.reverse

def splitAt? (word : List Char) : List Char → Option (List Char × List Char)
  | [] => (after? word []).map fun rest => ([], rest)
  | c :: s =>
    match after? word (c :: s) with
    | some rest => some ([], rest)
    | none => (splitAt? word s).map fun (a, b) => (c :: a, b)

def countWord (word : List Char) (s : List Char) : Nat :=
  go s.length s
where
  /-- Looks for at most `n` further occurrences. -/
  go : Nat → List Char → Nat
    | 0, _ => 0
    | n + 1, s =>
      match splitAt? word s with
      | none => 0
      | some (_, rest) => go n rest + 1

/-- Replaces every occurrence of `word`, found from left to right without overlap. -/
def replaceWord (word new : List Char) (s : List Char) : List Char :=
  go s.length s
where
  /-- Replaces at most `n` further occurrences. -/
  go : Nat → List Char → List Char
    | 0, s => s
    | n + 1, s =>
      match splitAt? word s with
      | none => s
      | some (a, rest) => a ++ new ++ go n rest

def hasWord (word s : List Char) : Bool := (splitAt? word s).isSome

def joinWith (sep : List α) : List (List α) → List α
  | [] => []
  | [part] => part
  | part :: rest => part ++ sep ++ joinWith sep rest

/-- What follows the first character satisfying `p` is shorter than the text. -/
theorem length_lt_of_splitFirst {p : Char → Bool} {s a b : List Char}
    (h : splitFirst p s = some (a, b)) : b.length < s.length := by
  induction s generalizing a with
  | nil => simp [splitFirst] at h
  | cons c s ih =>
    simp only [splitFirst] at h
    split at h
    · simp only [Option.some.injEq, Prod.mk.injEq] at h
      simp [← h.2]
    · simp only [Option.map_eq_some_iff, Prod.mk.injEq] at h
      obtain ⟨⟨x, y⟩, hxy, -, rfl⟩ := h
      exact Nat.lt_succ_of_lt (ih hxy)

theorem splitAll_ne_nil (c : α) (s : List α) : splitAll c s ≠ [] := by
  induction s with
  | nil => simp [splitAll]
  | cons d s ih =>
    unfold splitAll
    split
    · simp
    · split <;> simp

theorem joinWith_splitAll (c : α) (s : List α) : joinWith [c] (splitAll c s) = s := by
  induction s with
  | nil => rfl
  | cons d s ih =>
    unfold splitAll
    split
    · rename_i h
      subst h
      cases hs : splitAll d s with
      | nil => exact absurd hs (splitAll_ne_nil d s)
      | cons part rest => rw [hs] at ih; simp [joinWith, ih]
    · cases hs : splitAll c s with
      | nil => exact absurd hs (splitAll_ne_nil c s)
      | cons part rest =>
        rw [hs] at ih
        cases rest with
        | nil => simp [joinWith] at ih ⊢; exact ih
        | cons q rest => simp [joinWith] at ih ⊢; exact ih

theorem after?_append (word s : List α) : after? word (word ++ s) = some s := by
  induction word with
  | nil => rfl
  | cons c word ih => simp [after?, ih]

/-- A text starts with `word` exactly if it is `word` and a rest. -/
theorem after?_eq_some_iff {word s rest : List α} :
    after? word s = some rest ↔ s = word ++ rest := by
  constructor
  · intro h
    induction word generalizing s with
    | nil => simpa [after?] using h
    | cons c word ih =>
      cases s with
      | nil => simp [after?] at h
      | cons d s =>
        simp only [after?] at h
        split at h
        · rename_i hcd
          rw [ih h, hcd, List.cons_append]
        · simp at h
  · rintro rfl
    exact after?_append word rest

end DocSite.Text
