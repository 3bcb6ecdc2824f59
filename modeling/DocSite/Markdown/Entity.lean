import DocSite.Markdown.EntityTable
import DocSite.Text.Cut

namespace DocSite.Markdown

def hexValue? (c : Char) : Option Nat :=
  if c.isDigit then some (c.toNat - 48)
  else if 'a' ≤ c ∧ c ≤ 'f' then some (c.toNat - 87)
  else if 'A' ≤ c ∧ c ≤ 'F' then some (c.toNat - 55)
  else none

def readNumber (base : Nat) (digits : List Char) : Nat :=
  digits.foldl (fun n c => n * base + (hexValue? c).getD 0) 0

def readEntity? (entry : List Char) : Option (List Char × List Char) :=
  (Text.splitFirst (· == '=') entry).map fun (name, codes) =>
    (name, (Text.splitAll '.' codes).map fun code => Char.ofNat (readNumber 16 code))

def entities : List (List Char × List Char) :=
  entityLines.flatMap fun line => (Text.splitAll ' ' line.toList).filterMap readEntity?

/-- The character of a code point. Zero stands for the replacement character; a number that is no
code point has none. -/
def codePoint? (n : Nat) : Option Char :=
  if n = 0 then some '\ufffd' else if n.isValidChar then some (Char.ofNat n) else none

/-- A reference at the start of a text that follows `&`: its text, and the length with the `&`. -/
def entity? (s : List Char) : Option (List Char × Nat) :=
  match s with
  | '#' :: rest =>
    let (base, rest, size) := match rest with
      | 'x' :: digits | 'X' :: digits => (16, digits, 3)
      | digits => (10, digits, 2)
    let digits := (rest.take (if base = 16 then 6 else 7)).takeWhile fun c =>
      if base = 16 then (hexValue? c).isSome else c.isDigit
    if digits.isEmpty || (rest.drop digits.length).head? != some ';' then none
    else (codePoint? (readNumber base digits)).map fun c => ([c], size + digits.length + 1)
  | s =>
    let name := s.takeWhile Char.isAlphanum
    if (s.drop name.length).head? != some ';' then none
    else (entities.lookup name).map fun text => (text, name.length + 2)

end DocSite.Markdown
