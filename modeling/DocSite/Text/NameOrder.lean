
namespace DocSite.Text

/-- Lexicographic order by code points. On UTF-8 encodings it is the order of the bytes. -/
def compareChars : List Char → List Char → Ordering
  | [], [] => .eq
  | [], _ :: _ => .lt
  | _ :: _, [] => .gt
  | c :: s, d :: t => (compare c.toNat d.toNat).then (compareChars s t)

def compareText (a b : String) : Ordering := compareChars a.toList b.toList

/-- The form of a name with ASCII letters in lower case; other letters keep their case. -/
def foldCase (s : List Char) : List Char := s.map Char.toLower

/-- Orders names by their case-folded form, then by code points. -/
def compareNames (a b : String) : Ordering :=
  (compareChars (foldCase a.toList) (foldCase b.toList)).then (compareText a b)

def sortNames (names : List String) : List String :=
  names.mergeSort fun a b => (compareNames a b).isLE

def dropRepeats : List String → List String
  | [] => []
  | [a] => [a]
  | a :: b :: rest => if a = b then dropRepeats (b :: rest) else a :: dropRepeats (b :: rest)

end DocSite.Text
