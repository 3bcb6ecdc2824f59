
namespace DocSite.Json

/-- A JSON document as written. It keeps what a later stage may need to reject: the lexeme of a
number, repeated names, and strings with an escape that denotes no character. -/
inductive Node where
  | null
  | bool (b : Bool)
  | number (lexeme : List Char)
  | str (text : Option String)
  | list (items : List Node)
  | object (fields : List (Option String × Node))
  deriving Inhabited

def isSpace (c : Char) : Bool := c == ' ' || c == '\t' || c == '\n' || c == '\r'

def skipSpace (s : List Char) : List Char := s.dropWhile isSpace

def hexValue? (c : Char) : Option Nat :=
  if '0' ≤ c && c ≤ '9' then some (c.toNat - 48)
  else if 'a' ≤ c && c ≤ 'f' then some (c.toNat - 87)
  else if 'A' ≤ c && c ≤ 'F' then some (c.toNat - 55)
  else none

def fourHex? : List Char → Option (Nat × List Char)
  | a :: b :: c :: d :: s => do
    let a ← hexValue? a
    let b ← hexValue? b
    let c ← hexValue? c
    let d ← hexValue? d
    some (((a * 16 + b) * 16 + c) * 16 + d, s)
  | _ => none

def shortEscape? : Char → Option Char
  | '"' => some '"'
  | '\\' => some '\\'
  | '/' => some '/'
  | 'b' => some '\x08'
  | 'f' => some '\x0c'
  | 'n' => some '\n'
  | 'r' => some '\r'
  | 't' => some '\t'
  | _ => none

/-- The character of a numeric escape, and the rest. A leading surrogate needs a trailing one in
the escape after it. -/
def codeEscape (n : Nat) (s : List Char) : Option Char × List Char :=
  if n < 0xD800 || 0xDFFF < n then (some (Char.ofNat n), s)
  else if 0xDC00 ≤ n then (none, s)
  else match s with
    | '\\' :: 'u' :: s' =>
      match fourHex? s' with
      | some (m, rest) =>
        if 0xDC00 ≤ m && m ≤ 0xDFFF then
          (some (Char.ofNat (0x10000 + (n - 0xD800) * 0x400 + (m - 0xDC00))), rest)
        else (none, s)
      | none => (none, s)
    | _ => (none, s)

/-- Reads a string up to its closing quote. The text read so far is in reverse, and absent once
an escape has denoted no character. -/
def stringBody : Nat → Option (List Char) → List Char → Option (Option String × List Char)
  | 0, _, _ => none
  | _ + 1, _, [] => none
  | _ + 1, acc, '"' :: s => some (acc.map fun cs => String.ofList cs.reverse, s)
  | fuel + 1, acc, '\\' :: 'u' :: s => do
    let (n, s) ← fourHex? s
    let (c, s) := codeEscape n s
    stringBody fuel (do let cs ← acc; let c ← c; some (c :: cs)) s
  | fuel + 1, acc, '\\' :: c :: s => do
    let c ← shortEscape? c
    stringBody fuel (acc.map (c :: ·)) s
  | fuel + 1, acc, c :: s =>
    if c == '\\' || c.toNat < 0x20 then none else stringBody fuel (acc.map (c :: ·)) s

def string? (s : List Char) : Option (Option String × List Char) :=
  stringBody (s.length + 1) (some []) s

def digits? (s : List Char) : Option (List Char × List Char) :=
  match s.takeWhile Char.isDigit with
  | [] => none
  | ds => some (ds, s.dropWhile Char.isDigit)

/-- Reads a number: an integer part without leading zeros, a fraction and an exponent. -/
def number? (s : List Char) : Option (List Char × List Char) := do
  let (sign, s) := match s with
    | '-' :: s => (['-'], s)
    | s => ([], s)
  let (whole, s) ← digits? s
  if whole.head? == some '0' && whole.length != 1 then none
  let (fraction, s) ← match s with
    | '.' :: s => (digits? s).map fun (ds, s) => ('.' :: ds, s)
    | s => some ([], s)
  let (exponent, s) ← match s with
    | e :: s' =>
      if e == 'e' || e == 'E' then
        match s' with
        | c :: s'' =>
          if c == '+' || c == '-' then (digits? s'').map fun (ds, s) => (e :: c :: ds, s)
          else (digits? s').map fun (ds, s) => (e :: ds, s)
        | [] => none
      else some ([], s)
    | [] => some ([], [])
  some (sign ++ whole ++ fraction ++ exponent, s)

def literal? : List Char → List Char → Option (List Char)
  | [], s => some s
  | c :: word, d :: s => if c = d then literal? word s else none
  | _, [] => none

mutual

def value? : Nat → List Char → Option (Node × List Char)
  | 0, _ => none
  | fuel + 1, s =>
    match skipSpace s with
    | '[' :: s =>
      match skipSpace s with
      | ']' :: s => some (.list [], s)
      | s => (items? fuel s).map fun (items, s) => (.list items, s)
    | '\x7b' :: s =>
      match skipSpace s with
      | '\x7d' :: s => some (.object [], s)
      | s => (fields? fuel s).map fun (fields, s) => (.object fields, s)
    | '"' :: s => (string? s).map fun (text, s) => (.str text, s)
    | 'n' :: s => (literal? "ull".toList s).map fun s => (.null, s)
    | 't' :: s => (literal? "rue".toList s).map fun s => (.bool true, s)
    | 'f' :: s => (literal? "alse".toList s).map fun s => (.bool false, s)
    | s => (number? s).map fun (lexeme, s) => (.number lexeme, s)

/-- Reads the items of a list up to its bracket; there is at least one. -/
def items? : Nat → List Char → Option (List Node × List Char)
  | 0, _ => none
  | fuel + 1, s => do
    let (item, s) ← value? fuel s
    match skipSpace s with
    | ',' :: s => (items? fuel s).map fun (items, s) => (item :: items, s)
    | ']' :: s => some ([item], s)
    | _ => none

/-- Reads the fields of an object up to its brace; there is at least one. -/
def fields? : Nat → List Char → Option (List (Option String × Node) × List Char)
  | 0, _ => none
  | fuel + 1, s => do
    let s ← literal? ['"'] (skipSpace s)
    let (name, s) ← string? s
    let s ← literal? [':'] (skipSpace s)
    let (value, s) ← value? fuel s
    match skipSpace s with
    | ',' :: s => (fields? fuel s).map fun (fields, s) => ((name, value) :: fields, s)
    | '\x7d' :: s => some ([(name, value)], s)
    | _ => none

end

/-- Reads a whole text. Every call of `value?` reads a character, so twice the length bounds the
depth of the calls. -/
def Node.parse? (text : String) : Option Node := do
  let s := text.toList
  let (node, rest) ← value? (2 * s.length + 2) s
  if (skipSpace rest).isEmpty then some node else none

end DocSite.Json
