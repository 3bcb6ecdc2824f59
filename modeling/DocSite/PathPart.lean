import DocSite.Text.Cut

namespace DocSite

inductive PathPart (α : Type) where
  | root
  | here
  | up
  | name (letters : List α)
  deriving DecidableEq, Repr

namespace PathPart

variable {α β : Type}

def map (f : List α → List β) : PathPart α → PathPart β
  | .root => .root
  | .here => .here
  | .up => .up
  | .name letters => .name (f letters)

end PathPart

structure PathAlphabet (α : Type) where
  separator : α
  point : α
  point_ne_separator : point ≠ separator

namespace PathAlphabet

variable {α : Type} [DecidableEq α] (A : PathAlphabet α)

def text : PathPart α → List α
  | .root => [A.separator]
  | .here => [A.point]
  | .up => [A.point, A.point]
  | .name letters => letters

def part? (segment : List α) : Option (PathPart α) :=
  if segment = [] ∨ segment = [A.point] then none
  else if segment = [A.point, A.point] then some .up
  else some (.name segment)

def inner (s : List α) : List (PathPart α) := (Text.splitAll A.separator s).filterMap A.part?

/-- What only the start of a path stands for: the root, or the place that it starts from. -/
def start (s : List α) : Option (PathPart α) :=
  if s.head? = some A.separator then some .root
  else if (Text.splitAll A.separator s).head? = some [A.point] then some .here
  else none

/-- Repeated and trailing separators are skipped, and so is a point that does not come first. -/
def parts (s : List α) : List (PathPart α) := (A.start s).toList ++ A.inner s

/-- What the parts of `file` have behind those of `root`, or all of them if these do not come
first. -/
def below (root file : List α) : List (PathPart α) :=
  (Text.after? (A.parts root) (A.parts file)).getD (A.parts file)

/-- Puts `q` below `p`: a `q` that starts with a separator replaces `p`, and a separator is written
only where `p` is not empty and does not end in one. -/
def join (p q : List α) : List α :=
  if q.head? = some A.separator ∨ p = [] then q
  else if p.getLast? = some A.separator then p ++ q
  else p ++ A.separator :: q

def written (cs : List (PathPart α)) : List α := Text.joinWith [A.separator] (cs.map A.text)

end PathAlphabet
end DocSite
