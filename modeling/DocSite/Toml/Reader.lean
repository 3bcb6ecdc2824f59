import DocSite.Decimal
import DocSite.Toml.Basic
import DocSite.Toml.Moment

namespace DocSite.Toml

def isSpace (c : Char) : Bool := c == ' ' || c == '\t'

def skipSpace (s : List Char) : List Char := s.dropWhile isSpace

def isPlain (c : Char) : Bool := c == '\t' || (0x20 ≤ c.toNat && c.toNat != 0x7F)

def lineEnd? : List Char → Option (List Char)
  | '\n' :: s => some s
  | '\r' :: '\n' :: s => some s
  | _ => none

def skipComment (s : List Char) : List Char :=
  match s with
  | '#' :: s => s.dropWhile isPlain
  | s => s

def skipLines : Nat → List Char → List Char
  | 0, s => s
  | n + 1, s =>
    let s := skipComment (skipSpace s)
    match lineEnd? s with
    | some s => skipLines n s
    | none => s

def hexValue? (c : Char) : Option Nat :=
  if c.isDigit then some (c.toNat - 48)
  else if 'a' ≤ c && c ≤ 'f' then some (c.toNat - 87)
  else if 'A' ≤ c && c ≤ 'F' then some (c.toNat - 55)
  else none

def codeEscape? (n : Nat) (s : List Char) : Option (Char × List Char) := do
  let ds ← (s.take n).mapM hexValue?
  let code := ds.foldl (fun v d => v * 16 + d) 0
  if ds.length = n ∧ code.isValidChar then some (Char.ofNat code, s.drop n) else none

def escape? : List Char → Option (Char × List Char)
  | 'b' :: s => some ('\x08', s)
  | 't' :: s => some ('\t', s)
  | 'n' :: s => some ('\n', s)
  | 'f' :: s => some ('\x0c', s)
  | 'r' :: s => some ('\r', s)
  | 'e' :: s => some ('\x1b', s)
  | '"' :: s => some ('"', s)
  | '\\' :: s => some ('\\', s)
  | 'x' :: s => codeEscape? 2 s
  | 'u' :: s => codeEscape? 4 s
  | 'U' :: s => codeEscape? 8 s
  | _ => none

/-- Reads a text in double quotes after the opening quote; `acc` is in reverse. -/
def basicText? : Nat → List Char → List Char → Option (String × List Char)
  | _ + 1, acc, '"' :: s => some (String.ofList acc.reverse, s)
  | n + 1, acc, '\\' :: s => do
    let (c, s) ← escape? s
    basicText? n (c :: acc) s
  | n + 1, acc, c :: s => if isPlain c then basicText? n (c :: acc) s else none
  | _, _, _ => none

def literalText? (s : List Char) : Option (String × List Char) :=
  match s.dropWhile fun c => isPlain c && c != '\'' with
  | '\'' :: rest => some (String.ofList (s.takeWhile fun c => isPlain c && c != '\''), rest)
  | _ => none

/-- The text after a backslash at a line end: blanks and line ends are skipped. -/
def joinedLine? (s : List Char) : Option (List Char) :=
  (lineEnd? (skipSpace s)).map fun s => s.dropWhile fun c => isSpace c || c == '\n' || c == '\r'

/-- Reads a text of several lines after its opening quotes. It ends at three quotes; up to two
more quotes before them belong to the text. -/
def linesText? (quote : Char) : Nat → List Char → List Char → Option (String × List Char)
  | 0, _, _ => none
  | n + 1, acc, s =>
    match s with
    | [] => none
    | c :: rest =>
      if c = quote then
        match rest with
        | a :: b :: rest' =>
          if a = quote ∧ b = quote then
            let more := (rest'.takeWhile (· == quote)).take 2
            some (String.ofList (acc.reverse ++ more), rest'.drop more.length)
          else linesText? quote n (c :: acc) rest
        | _ => none
      else if c = '\\' ∧ quote = '"' then
        match joinedLine? rest with
        | some rest => linesText? quote n acc rest
        | none => do
          let (c, rest) ← escape? rest
          linesText? quote n (c :: acc) rest
      else match lineEnd? s with
        | some s' => linesText? quote n ((s.take (s.length - s'.length)).reverse ++ acc) s'
        | none => if isPlain c then linesText? quote n (c :: acc) rest else none

/-- Reads a text of several lines after its opening quotes; a line end right there is dropped. -/
def openLines? (quote : Char) (s : List Char) : Option (String × List Char) :=
  let s := (lineEnd? s).getD s
  linesText? quote (s.length + 1) [] s

def isKeyChar (c : Char) : Bool := c.isAlphanum || c == '_' || c == '-'

def keyPart? (s : List Char) : Option (String × List Char) :=
  match s with
  | '"' :: s => basicText? (s.length + 1) [] s
  | '\'' :: s => literalText? s
  | s =>
    match s.takeWhile isKeyChar with
    | [] => none
    | key => some (String.ofList key, s.dropWhile isKeyChar)

/-- Reads a key: parts with points between them. -/
def key? : Nat → List Char → Option (List String × List Char)
  | 0, _ => none
  | n + 1, s => do
    let (part, s) ← keyPart? (skipSpace s)
    match skipSpace s with
    | '.' :: s => (key? n s).map fun (path, s) => (part :: path, s)
    | s => some ([part], s)

def digitGroups? (isDigit : Char → Bool) (s : List Char) : Option (List Char) :=
  let groups := Text.splitAll '_' s
  if groups.all fun g => !g.isEmpty && g.all isDigit then some groups.flatten else none

def inBase (base : Nat) (ds : List Char) : Nat :=
  ds.foldl (fun n c => n * base + (hexValue? c).getD 0) 0

def leastWide : Int := -170141183460469231731687303715884105728

def greatestWide : Int := 340282366920938463463374607431768211455

def wide? (n : Int) : Option Toml :=
  if leastWide ≤ n ∧ n ≤ greatestWide then some (.int n) else none

def based? (base : Nat) (s : List Char) : Option Toml := do
  let ds ← digitGroups? (fun c => match hexValue? c with | some d => d < base | none => false) s
  wide? (inBase base ds)

def splitSign : List Char → Bool × List Char
  | '-' :: s => (true, s)
  | '+' :: s => (false, s)
  | s => (false, s)

def isWhole (ds : List Char) : Bool := ds.length == 1 || ds.head? != some '0'

/-- The number of a fraction or exponent form; one too large to be finite is refused. -/
def float? (s : List Char) : Option Toml := do
  let (negative, s) := splitSign s
  let (mantissa, exponent) ← match Text.splitFirst (fun c => c == 'e' || c == 'E') s with
    | some (m, e) => do
      let (minus, e) := splitSign e
      let e ← digitGroups? Char.isDigit e
      some (m, if minus then -(inBase 10 e : Int) else inBase 10 e)
    | none => some (s, 0)
  let (whole, fraction) ← match Text.splitFirst (· == '.') mantissa with
    | some (w, f) => do some (w, ← digitGroups? Char.isDigit f)
    | none => some (mantissa, [])
  let whole ← digitGroups? Char.isDigit whole
  if !isWhole whole then none
  let x := Decimal.toFloat (inBase 10 (whole ++ fraction)) (exponent - fraction.length)
  if x.isFinite then some (.float (if negative then -x else x)) else none

def int? (s : List Char) : Option Toml := do
  let (negative, ds) := splitSign s
  let ds ← digitGroups? Char.isDigit ds
  if !isWhole ds then none
  wide? (if negative then -(inBase 10 ds : Int) else inBase 10 ds)

def word? (s : List Char) : Option Toml :=
  match String.ofList s with
  | "true" => some (.bool true)
  | "false" => some (.bool false)
  | "inf" | "+inf" => some (.float (1.0 / 0.0))
  | "-inf" => some (.float (-1.0 / 0.0))
  | "nan" | "+nan" | "-nan" => some (.float (0.0 / 0.0))
  | _ =>
    match s with
    | '0' :: 'x' :: ds => based? 16 ds
    | '0' :: 'o' :: ds => based? 8 ds
    | '0' :: 'b' :: ds => based? 2 ds
    | _ => if s.any fun c => c == '.' || c == 'e' || c == 'E' then float? s else int? s

def isWordChar (c : Char) : Bool := isKeyChar c || c == '+' || c == '.' || c == ':'

/-- Reads a word without quotes: a date or time if it looks like one, else a number or name. -/
def bare? (s : List Char) : Option (Toml × List Char) :=
  match Moment.read? s with
  | some (text, rest) =>
    if (rest.head?.map isWordChar).getD false then none else some (.moment text, rest)
  | none => (word? (s.takeWhile isWordChar)).map fun v => (v, s.dropWhile isWordChar)

def depthLimit : Nat := 80

mutual

def value? : Nat → Nat → List Char → Option (Toml × List Char)
  | 0, _, _ => none
  | n + 1, depth, s =>
    match s with
    | '"' :: '"' :: '"' :: s => (openLines? '"' s).map fun (t, s) => (.str t, s)
    | '\'' :: '\'' :: '\'' :: s => (openLines? '\'' s).map fun (t, s) => (.str t, s)
    | '"' :: s => (basicText? (s.length + 1) [] s).map fun (t, s) => (.str t, s)
    | '\'' :: s => (literalText? s).map fun (t, s) => (.str t, s)
    | '[' :: s =>
      match depth with
      | 0 => none
      | depth + 1 => (items? n depth s).map fun (items, s) => (.array items, s)
    | '\x7b' :: s =>
      match depth with
      | 0 => none
      | depth + 1 => do
        let (pairs, s) ← pairs? n depth s
        some (← ofPairs? pairs, s)
    | s => bare? s

def items? : Nat → Nat → List Char → Option (List Toml × List Char)
  | 0, _, _ => none
  | n + 1, depth, s =>
    match skipLines s.length s with
    | ']' :: s => some ([], s)
    | s => do
      let (v, s) ← value? n depth s
      match skipLines s.length s with
      | ',' :: s => (items? n depth s).map fun (items, s) => (v :: items, s)
      | ']' :: s => some ([v], s)
      | _ => none

def pairs? : Nat → Nat → List Char → Option (List (List String × Toml) × List Char)
  | 0, _, _ => none
  | n + 1, depth, s =>
    match skipLines s.length s with
    | '\x7d' :: s => some ([], s)
    | s => do
      let (path, s) ← key? (s.length + 1) s
      let s ← Text.after? ['='] s
      let (v, s) ← value? n depth (skipSpace s)
      match skipLines s.length s with
      | ',' :: s => (pairs? n depth s).map fun (pairs, s) => ((path, v) :: pairs, s)
      | '\x7d' :: s => some ([(path, v)], s)
      | _ => none

end

def statement? (s : List Char) : Option (Statement × List Char) :=
  match s with
  | '[' :: '[' :: s => do
    let (path, s) ← key? (s.length + 1) s
    let s ← Text.after? [']', ']'] s
    some (.row path, s)
  | '[' :: s => do
    let (path, s) ← key? (s.length + 1) s
    let s ← Text.after? [']'] s
    some (.header path, s)
  | s => do
    let (path, s) ← key? (s.length + 1) s
    let s ← Text.after? ['='] s
    let (v, s) ← value? (2 * s.length + 2) depthLimit (skipSpace s)
    some (.pair path v, s)

/-- Reads the statements of a document; after each the line must end. -/
def statements? : Nat → List Char → Option (List Statement)
  | 0, _ => none
  | n + 1, s =>
    match skipLines s.length s with
    | [] => some []
    | s => do
      let (statement, s) ← statement? s
      let s := skipComment (skipSpace s)
      let s ← if s.isEmpty then some [] else lineEnd? s
      some (statement :: (← statements? n s))

/-- Reads a document into its fields. A byte order mark at the start is skipped. -/
def parse? (text : String) : Option (List (String × Toml)) := do
  let s := text.toList
  let s := if s.head? == some (Char.ofNat 0xFEFF) then s.tail else s
  ofStatements? (← statements? (s.length + 1) s)

end DocSite.Toml
