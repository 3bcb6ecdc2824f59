import DocSite.Text.Cut

namespace DocSite.Glob

inductive SetItem where
  | single (c : Char)
  | range (least greatest : Char)
  deriving DecidableEq, Repr

inductive Token where
  /-- Exactly this character. -/
  | one (c : Char)
  | anyOne
  | inside (set : List SetItem)
  | outside (set : List SetItem)
  /-- Any text without `/`. -/
  | run
  /-- Any directories with the `/` after each. At the end of a pattern, any path. -/
  | directories
  deriving DecidableEq, Repr

def SetItem.holds (c : Char) : SetItem → Bool
  | single d => c == d
  | range least greatest => least ≤ c && c ≤ greatest

def Token.takes (c : Char) : Token → Bool
  | one d => c == d
  | anyOne => c != '/'
  | inside set => c != '/' && set.any (SetItem.holds c)
  | outside set => c != '/' && !set.any (SetItem.holds c)
  | run | directories => false

def items : List Char → List SetItem
  | c :: '-' :: d :: s => .range c d :: items s
  | c :: s => .single c :: items s
  | [] => []

/-- Reads a set after its opening bracket. A bracket does not close a set without characters. -/
def set? : List Char → Option (Token × List Char)
  | '!' :: c :: s => (Text.splitFirst (· == ']') s).map fun (set, rest) =>
    (.outside (items (c :: set)), rest)
  | c :: s => (Text.splitFirst (· == ']') s).map fun (set, rest) =>
    (.inside (items (c :: set)), rest)
  | [] => none

theorem length_lt_of_set? {s rest : List Char} {t : Token} (h : set? s = some (t, rest)) :
    rest.length < s.length := by
  unfold set? at h
  split at h
  · obtain ⟨cut, hcut, heq⟩ := Option.map_eq_some_iff.1 h
    have := Text.length_lt_of_splitFirst hcut
    obtain ⟨-, rfl⟩ := Prod.mk.inj heq
    simp only [List.length_cons]
    omega
  · obtain ⟨cut, hcut, heq⟩ := Option.map_eq_some_iff.1 h
    have := Text.length_lt_of_splitFirst hcut
    obtain ⟨-, rfl⟩ := Prod.mk.inj heq
    simp only [List.length_cons]
    omega
  · contradiction

/-- The tokens of a pattern. A part of a path begins at the start and after each `/`. -/
def parse? (atStart : Bool) (s : List Char) : Option (List Token) :=
  match s with
  | [] => some []
  | '?' :: s => (parse? false s).map (.anyOne :: ·)
  | '*' :: '*' :: '*' :: _ => none
  | ['*', '*'] => if atStart then some [.directories] else none
  | '*' :: '*' :: '/' :: s => if atStart then (parse? true s).map (.directories :: ·) else none
  | '*' :: '*' :: _ => none
  | '*' :: s => (parse? false s).map (.run :: ·)
  | '[' :: s =>
    match h : set? s with
    | some (t, rest) =>
      have := length_lt_of_set? h
      (parse? false rest).map (t :: ·)
    | none => none
  | c :: s => (parse? (c == '/') s).map (.one c :: ·)
termination_by s.length
decreasing_by all_goals (simp only [List.length_cons]; omega)

/-- Whether tokens accept a text. What stands for more than one character first tries to stop where
it is. -/
def accepts : List Token → List Char → Bool
  | [], s => s.isEmpty
  | .run :: tokens, [] => accepts tokens []
  | .run :: tokens, c :: s => accepts tokens (c :: s) || (c != '/' && accepts (.run :: tokens) s)
  | .directories :: tokens, s =>
    accepts tokens s ||
      match h : Text.splitFirst (· == '/') s with
      | some (_, rest) =>
        have := Text.length_lt_of_splitFirst h
        accepts (.directories :: tokens) rest
      | none => accepts tokens []
  | _ :: _, [] => false
  | t :: tokens, c :: s => t.takes c && accepts tokens s
termination_by tokens s => tokens.length + s.length
decreasing_by all_goals (simp only [List.length_cons, List.length_nil]; omega)

def isSpecial (c : Char) : Bool := ['?', '*', '[', ']'].contains c

def escape (s : List Char) : List Char :=
  s.flatMap fun c => if isSpecial c then ['[', c, ']'] else [c]

end DocSite.Glob
