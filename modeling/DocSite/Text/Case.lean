import DocSite.Text.CaseTable

namespace DocSite.Text

def inRanges (ranges : List (Nat × Nat)) (n : Nat) : Bool :=
  ranges.any fun (a, b) => a ≤ n && n ≤ b

def mapRuns (runs : List (Nat × Nat × Nat × Int)) (n : Nat) : Nat :=
  match runs.find? fun (a, b, s, _) => a ≤ n && n ≤ b && (n - a) % s == 0 with
  | some (_, _, _, d) => (n + d).toNat
  | none => n

/-- The image of a character under a mapping given by runs and special entries. -/
def mapChar (runs : List (Nat × Nat × Nat × Int)) (specials : List (Nat × List Nat))
    (c : Char) : List Char :=
  match specials.lookup c.toNat with
  | some codes => codes.map Char.ofNat
  | none => [Char.ofNat (mapRuns runs c.toNat)]

def lowerChar (c : Char) : List Char :=
  if c.toNat < 0x80 then [c.toLower] else mapChar lowerRuns lowerSpecials c

def upperChar (c : Char) : List Char :=
  if c.toNat < 0x80 then [c.toUpper] else mapChar upperRuns upperSpecials c

/-- The form of a character that all its cases share. The dotless i is a letter of its own. -/
def foldChar (c : Char) : List Char :=
  if c = 'ı' then [c] else ((lowerChar c).flatMap upperChar).flatMap lowerChar

def startsCased (s : List Char) : Bool :=
  match s.dropWhile fun c => inRanges ignorableRanges c.toNat with
  | c :: _ => inRanges casedRanges c.toNat
  | [] => false

/-- The lower case of a text whose characters before it, last first, are `before`. A capital sigma
takes the final form at the end of a word. -/
def lowerChars (before : List Char) : List Char → List Char
  | [] => []
  | c :: s =>
    (if c = 'Σ' then if startsCased before && !startsCased s then ['ς'] else ['σ']
      else lowerChar c) ++ lowerChars (c :: before) s

def toLower (s : String) : String := String.ofList (lowerChars [] s.toList)

def toUpper (s : String) : String := String.ofList (s.toList.flatMap upperChar)

def capitalize (s : String) : String :=
  match s.toList with
  | [] => ""
  | c :: rest => String.ofList (upperChar c ++ lowerChars [] rest)

end DocSite.Text
