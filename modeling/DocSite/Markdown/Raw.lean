import DocSite.Markdown.Mark

namespace DocSite.Markdown

/-- How a construct goes on behind the end of a line; `none` if it may not. -/
abbrev NextLine := Option (Cursor → Cursor)

/-- A tag read in part: its characters so far, last first, and the position behind them. -/
structure TagText where
  text : List Char
  here : Cursor

namespace TagText

def take (t : TagText) (n : Nat) : TagText :=
  ⟨(t.here.rest.take n).reverse ++ t.text, t.here.advance n⟩

def takeWhile (t : TagText) (p : Char → Bool) : TagText :=
  t.take (t.here.rest.takeWhile p).length

def eat? (t : TagText) (c : Char) : Option TagText :=
  if t.here.head? = some c then some (t.take 1) else none

def newline? (next : NextLine) (t : TagText) (n : Nat) : Option TagText :=
  next.map fun go =>
    let t := t.take n
    { t with here := go t.here }

/-- Takes white space, over several lines if that is allowed; `fuel` bounds the lines. -/
def spaces? (next : NextLine) : Nat → TagText → Option TagText
  | 0, t => some t
  | fuel + 1, t =>
    let t := t.takeWhile isGap
    match t.here.rest, lineEnd? t.here.rest with
    | _ :: _, some n => (t.newline? next n).bind (spaces? next fuel)
    | _, _ => some t

def quoted? (next : NextLine) (q : Char) : Nat → TagText → Option TagText
  | 0, _ => none
  | fuel + 1, t =>
    match t.here.rest with
    | [] => none
    | c :: _ =>
      if c = q then some (t.take 1)
      else match lineEnd? t.here.rest with
        | some n => (t.newline? next n).bind (quoted? next q fuel)
        | none => quoted? next q fuel (t.take 1)

/-- Whether a character can stand in an attribute value without quotation marks. -/
def isBareChar (c : Char) : Bool :=
  !("\t\n\r \"'=><\x60".toList.contains c)

def value? (next : NextLine) (fuel : Nat) (t : TagText) : Option TagText :=
  match t.here.head? with
  | none => none
  | some c =>
    if c = '"' ∨ c = '\'' then (t.take 1).quoted? next c fuel
    else if " =><\n\r\x60".toList.contains c then none
    else some (t.takeWhile isBareChar)

/-- Takes an attribute. White space after a name without a value is left. -/
def attribute? (next : NextLine) (fuel : Nat) (t : TagText) : Option TagText := do
  let c ← t.here.head?
  if c.isAlpha || c == '_' || c == ':' then
    let named := (t.take 1).takeWhile fun d => d.isAlphanum || "_.:-".toList.contains d
    let spaced ← named.spaces? next fuel
    match spaced.eat? '=' with
    | none => some named
    | some t => value? next fuel (← t.spaces? next fuel)
  else none

def attributes? (next : NextLine) (lines : Nat) : Nat → TagText → Option TagText
  | 0, _ => none
  | fuel + 1, t => do
    let spaced ← t.spaces? next lines
    match spaced.here.head? with
    | none => none
    | some c =>
      if c = '/' ∨ c = '>' then some spaced
      else if spaced.here.pos = t.here.pos then none
      else attributes? next lines fuel (← spaced.attribute? next lines)

def tag? (next : NextLine) (start : Cursor) : Option TagText := do
  let fuel := start.rest.length + 1
  let t ← (TagText.mk [] start).eat? '<'
  let (closing, t) := match t.eat? '/' with
    | some t => (true, t)
    | none => (false, t)
  let name ← t.here.head?
  if !name.isAlpha then none
  else
    let t := (t.take 1).takeWhile fun c => c.isAlphanum || c == '-'
    if closing then (t.takeWhile isGap).eat? '>'
    else
      let t ← t.attributes? next fuel fuel
      ((t.eat? '/').getD t).eat? '>'

end TagText

def lengthThrough? (word : String) (s : List Char) : Option Nat :=
  (Text.splitAt? word.toList s).map fun (before, _) => before.length + word.length

def declarationLength? (s : List Char) : Option Nat :=
  match s with
  | '-' :: rest =>
    let dashes := runLength '-' rest
    if dashes = 0 then none
    else if rest[dashes]? = some '>' then some (dashes + 2)
    else (lengthThrough? "-->" (rest.drop dashes)).map (· + dashes + 1)
  | c :: rest =>
    match Text.after? "[CDATA[".toList s with
    | some data => (lengthThrough? "]]>" data).map (· + 7)
    | none => if c.isAlpha then (lengthThrough? ">" rest).map (· + 1) else none
  | [] => none

/-- A construct of HTML inside a text, and the position behind it. The cursor stands at its `<`. -/
def inlineHtml? (next : Cursor → Cursor) (c : Cursor) : Option (List Char × Cursor) :=
  let through (n : Nat) : List Char × Cursor := (c.rest.take n, c.advance n)
  match c.rest with
  | '<' :: '!' :: s => (declarationLength? s).map fun n => through (n + 2)
  | '<' :: '?' :: s => (lengthThrough? "?>" s).map fun n => through (n + 2)
  | _ => (TagText.tag? (some next) c).map fun t => (t.text.reverse, t.here)

def isTagLine (c : Cursor) : Bool :=
  match TagText.tag? none c with
  | some t => (blankLine? t.here.rest).isSome
  | none => false

/-- An address between angle brackets: a scheme of 2 to 32 characters, a colon and what follows.
The text starts behind the opening bracket. -/
def uri? (s : List Char) : Option (List Char) :=
  match s with
  | c :: _ =>
    let scheme := s.takeWhile fun d => d.isAlphanum || ".-+".toList.contains d
    let body := s.takeWhile fun d => ' ' < d && d != '<' && d != '>'
    if c.isAlpha && 2 ≤ scheme.length && scheme.length ≤ 32 && s[scheme.length]? == some ':' &&
        s[body.length]? == some '>' then some body
    else none
  | [] => none

def isMailChar (c : Char) : Bool :=
  c.isAlphanum || ".!#$%&'*+/=?^_\x60\x7b|\x7d~-".toList.contains c

def isHostLabel (s : List Char) : Bool :=
  1 ≤ s.length && s.length ≤ 63 && s.all (fun c => c.isAlphanum || c == '-') &&
    s.head? != some '-' && s.getLast? != some '-'

/-- A mail address between angle brackets. The text starts behind the opening bracket. -/
def mail? (s : List Char) : Option (List Char) :=
  let name := s.takeWhile isMailChar
  match s.drop name.length with
  | '@' :: host =>
    let host := host.takeWhile fun c => c.isAlphanum || c == '-' || c == '.'
    let address := name ++ '@' :: host
    if !name.isEmpty && (Text.splitAll '.' host).all isHostLabel &&
        s[address.length]? == some '>' then some address
    else none
  | _ => none

end DocSite.Markdown
