import DocSite.Json.Node
import DocSite.Template.Fault
import DocSite.Text.Blank
import DocSite.Text.Cut
import DocSite.Toml.Reader

namespace DocSite.Template

inductive Code where
  | print
  | tag
  deriving DecidableEq, Repr

def Code.closing : Code → List Char
  | print => ['\x7d', '\x7d']
  | tag => ['%', '\x7d']

inductive Token where
  /-- Text outside of code. -/
  | text (s : String)
  | opening (c : Code)
  | closing (c : Code)
  | word (s : String)
  | str (s : String)
  | int (n : Nat)
  | float (x : Float)
  | sign (s : String)
  /-- What is no token, and why. Nothing follows it. -/
  | fault (f : TemplateFault)
  deriving BEq

namespace Token

def quoted? (mark : Char) : List Char → Option (List Char × List Char)
  | [] => none
  | '\\' :: c :: s => (quoted? mark s).map fun (body, rest) => ('\\' :: c :: body, rest)
  | c :: s =>
    if c = mark then some ([], s)
    else (quoted? mark s).map fun (body, rest) => (c :: body, rest)

def unquote? : Nat → List Char → Option (List Char)
  | _, [] => some []
  | n + 1, '\\' :: 'u' :: s => do
    let (code, s) ← Json.fourHex? s
    match Json.codeEscape code s with
    | (some c, s) => (unquote? n s).map (c :: ·)
    | (none, _) => none
  | n + 1, '\\' :: c :: s => do
    let c ← if c = '\'' then some c else Json.shortEscape? c
    (unquote? n s).map (c :: ·)
  | _, ['\\'] => none
  | n + 1, c :: s => (unquote? n s).map (c :: ·)
  | 0, _ => none

def ofQuoted (code : List Char) : Token :=
  match unquote? code.length code with
  | some s => .str (String.ofList s)
  | none => .fault .badEscape

inductive Stage where
  | whole
  | based (hex : Bool)
  | fraction
  | exponent
  | exponentDigits

def Stage.next? (st : Stage) (c : Char) : Option Stage :=
  match st, c with
  | st, '_' => some st
  | .whole, '.' => some .fraction
  | .whole, 'e' | .whole, 'E' | .fraction, 'e' | .fraction, 'E' => some .exponent
  | .exponent, '+' | .exponent, '-' => some .exponentDigits
  | .exponent, c => if c.isDigit then some .exponentDigits else none
  | .based true, c => if (Toml.hexValue? c).isSome then some (.based true) else none
  | st, c => if c.isDigit then some st else none

def numberChars (st : Stage) : List Char → List Char × List Char
  | [] => ([], [])
  | c :: s =>
    match st.next? c with
    | some st =>
      let (number, rest) := numberChars st s
      (c :: number, rest)
    | none => ([], c :: s)

def maxInt : Nat := Nat.pow 2 128 - 1

def ofDigits (base : Nat) (ds : List Char) : Token :=
  match ds.mapM Toml.hexValue? with
  | some values =>
    let n := values.foldl (fun v d => v * base + d) 0
    if values.isEmpty || values.any (base ≤ ·) || maxInt < n then .fault .malformed else .int n
  | none => .fault .malformed

def ofFraction (ds : List Char) : Token :=
  let (mantissa, exponent?) :=
    match Text.splitFirst (fun c => c == 'e' || c == 'E') ds with
    | some (m, e) => (m, some e)
    | none => (ds, none)
  let (whole, part) := (Text.splitFirst (· == '.') mantissa).getD (mantissa, [])
  let exponent := match exponent? with
    | none => some (0 : Int)
    | some e =>
      let (negative, digits) := Toml.splitSign e
      if digits.isEmpty then none
      else
        let n : Int := Toml.inBase 10 digits
        some (if negative then -n else n)
  match exponent with
  | some e => .float (Decimal.toFloat (Toml.inBase 10 (whole ++ part)) (e - part.length))
  | none => .fault .malformed

def number (s : List Char) : Token × List Char :=
  let finish (chars : List Char) (ofChars : List Char → Token) : Token :=
    if chars.getLast? == some '_' then .fault .malformed
    else ofChars (chars.filter (· != '_'))
  let inBase (base : Nat) (s : List Char) : Token × List Char :=
    let (chars, rest) := numberChars (.based (base == 16)) s
    (finish chars (ofDigits base), rest)
  match s with
  | '0' :: 'b' :: s | '0' :: 'B' :: s => inBase 2 s
  | '0' :: 'o' :: s | '0' :: 'O' :: s => inBase 8 s
  | '0' :: 'x' :: s | '0' :: 'X' :: s => inBase 16 s
  | s =>
    let (chars, rest) := numberChars .whole s
    let isWhole := chars.all fun c => c.isDigit || c == '_'
    (finish chars (if isWhole then ofDigits 10 else ofFraction), rest)

def signs : List String :=
  ["//", "**", "==", "!=", ">=", "<=", "+", "-", "*", "/", "%", ".", ",", ":", "~", "|", "=",
    ">", "<", "(", ")", "[", "]", "\x7b", "\x7d"]

def sign? (s : List Char) : Option (String × List Char) :=
  signs.findSome? fun mark => (Text.after? mark.toList s).map fun rest => (mark, rest)

def startsWord (c : Char) : Bool := c.isAlpha || c == '_'

/-- The first token of code that is neither empty nor starts with white space, and the rest. -/
def first (s : List Char) : Token × List Char :=
  match s with
  | [] => (.fault .malformed, [])
  | c :: t =>
    if c == '"' || c == '\'' then
      match quoted? c t with
      | some (code, rest) => (ofQuoted code, rest)
      | none => (.fault .malformed, [])
    else if c.isDigit then number s
    else if startsWord c then
      (.word (String.ofList (s.takeWhile fun c => c.isAlphanum || c == '_')),
        s.dropWhile fun c => c.isAlphanum || c == '_')
    else match sign? s with
      | some (mark, rest) => (.sign mark, rest)
      | none => (.fault .malformed, [])

def opens : Token → Int
  | .sign "(" | .sign "[" | .sign "\x7b" => 1
  | .sign ")" | .sign "]" | .sign "\x7d" => -1
  | _ => 0

/-- The end of code at the start of a text: whether white space goes, and the rest. -/
def closing? (c : Code) (s : List Char) : Option (Bool × List Char) :=
  match s with
  | '-' :: t => (Text.after? c.closing t).map fun rest => (true, rest)
  | '+' :: t => (Text.after? c.closing t).map fun rest => (false, rest)
  | s => (Text.after? c.closing s).map fun rest => (false, rest)

/-- The tokens of code up to its end, whether white space goes there, and the rest. Inside of
brackets code does not end. -/
def code (c : Code) : Nat → Int → List Char → List Token × Option (Bool × List Char)
  | 0, _, _ => ([.fault .malformed], none)
  | n + 1, depth, s =>
    let s := s.dropWhile Text.isBlank
    match if depth = 0 then closing? c s else none with
    | some (trim, rest) => ([.closing c], some (trim, rest))
    | none =>
      match first s with
      | (.fault f, _) => ([.fault f], none)
      | (t, rest) =>
        let (tokens, after) := code c n (depth + t.opens) rest
        (t :: tokens, after)

/-- The mark after an opening or before a closing one: whether white space goes there. -/
def trimMark : List Char → Bool × List Char
  | '-' :: s => (true, s)
  | '+' :: s => (false, s)
  | s => (false, s)

def isTagBlank (c : Char) : Bool := c == ' ' || c == '\t' || c == '\n' || c == '\r' || c == '\x0c'

/-- The text after a tag that holds a single word, and whether white space goes there. -/
def wordTag? (word : String) (s : List Char) : Option (Bool × List Char) := do
  let s ← Text.after? word.toList (s.dropWhile isTagBlank)
  let (trim, s) := trimMark (s.dropWhile isTagBlank)
  return (trim, ← Text.after? Code.tag.closing s)

/-- The text up to the end of a passage that is not read as a template, whether white space goes
before and after the end, and the rest. -/
def verbatim? : List Char → Option (List Char × Bool × Bool × List Char)
  | [] => none
  | c :: s =>
    let here := if c = '\x7b' then
      match s with
      | '%' :: t =>
        let (before, t) := trimMark t
        (wordTag? "endraw" t).map fun (after, rest) => (([] : List Char), before, after, rest)
      | _ => none
    else none
    match here with
    | some r => some r
    | none => (verbatim? s).map fun (body, r) => (c :: body, r)

/-- A comment without its opening mark: whether white space goes after it, and the rest. -/
def comment? (s : List Char) : Option (Bool × List Char) :=
  (Text.splitAt? ['#', '\x7d'] s).map fun (body, rest) => (body.getLast? == some '-', rest)

def beforeMark : List Char → List Char × Option (Char × List Char)
  | [] => ([], none)
  | [c] => ([c], none)
  | c :: d :: s =>
    if c = '\x7b' ∧ (d = '\x7b' ∨ d = '%' ∨ d = '#') then ([], some (d, s))
    else
      let (before, mark) := beforeMark (d :: s)
      (c :: before, mark)

def ofText (s : List Char) : List Token := if s.isEmpty then [] else [.text (String.ofList s)]

/-- The tokens of a template; `trim` tells whether white space at the start goes. -/
def all : Nat → Bool → List Char → List Token
  | 0, _, _ => []
  | n + 1, trim, s =>
    let s := if trim then s.dropWhile Text.isBlank else s
    match beforeMark s with
    | (plain, none) => ofText plain
    | (plain, some (mark, rest)) =>
      let (trimBefore, rest) := trimMark rest
      let before := ofText (if trimBefore then Text.dropEndWhile Text.isBlank plain else plain)
      let passage (c : Code) : List Token :=
        match code c (rest.length + 1) 0 rest with
        | (tokens, some (trim, rest)) => .opening c :: tokens ++ all n trim rest
        | (tokens, none) => .opening c :: tokens
      before ++
        if mark = '#' then
          match comment? rest with
          | some (trim, rest) => all n trim rest
          | none => [.fault .malformed]
        else if mark = '%' then
          match wordTag? "raw" rest with
          | some (trimStart, rest) =>
            match verbatim? rest with
            | some (body, trimEnd, trim, rest) =>
              let body := if trimStart then body.dropWhile Text.isBlank else body
              let body := if trimEnd then Text.dropEndWhile Text.isBlank body else body
              ofText body ++ all n trim rest
            | none => [.fault .malformed]
          | none => passage .tag
        else passage .print

def dropLineEnd (s : List Char) : List Char :=
  let drop (c : Char) (s : List Char) : List Char := if s.getLast? == some c then s.dropLast else s
  drop '\r' (drop '\n' s)

def ofTemplate (source : String) : List Token :=
  let s := dropLineEnd source.toList
  all (s.length + 1) false s

end Token
end DocSite.Template
