import DocSite.Markdown.Block
import DocSite.Markdown.Emphasis

namespace DocSite.Markdown

namespace Phrase

def cursorAt (p : Phrase) (pos : Nat) : Cursor := p.source.advance (pos - p.source.pos)

def skipMargin (p : Phrase) (c : Cursor) : Cursor := skipHolders p.holders c

/-- The text of a code span: each line end becomes a space. In a table a pipe is written with a
backslash before it. -/
def codeText (p : Phrase) (stop : Nat) : Nat → List Char → Cursor → List Char
  | 0, text, _ => text.reverse
  | fuel + 1, text, c =>
    if stop ≤ c.pos then text.reverse
    else match c.rest with
      | [] => text.reverse
      | '\\' :: '|' :: _ =>
        if p.inTable then codeText p stop fuel ('|' :: text) (c.advance 2)
        else codeText p stop fuel ('\\' :: text) (c.advance 1)
      | d :: _ =>
        if d = '\n' ∨ d = '\r' then
          codeText p stop fuel (' ' :: text)
            (p.skipMargin (c.advance ((lineEnd? c.rest).getD 1)))
        else codeText p stop fuel (d :: text) (c.advance 1)

def trimCode (s : List Char) : List Char :=
  if s.head? = some ' ' ∧ s.getLast? = some ' ' ∧ !s.all (· == ' ') then s.tail.dropLast else s

def closingTicks? (n : Nat) : List Token → Option (Token × List Token)
  | [] => none
  | t :: rest =>
    match t.kind with
    | .ticks count _ => if count = n then some (t, rest) else closingTicks? n rest
    | _ => closingTicks? n rest

def separator (p : Phrase) (c : Cursor) : Cursor :=
  let c := c.skip isGap
  let c := match lineEnd? c.rest with
    | some n => p.skipMargin (c.advance n)
    | none => c
  c.skip isGap

/-- Reads the title of a link up to its closing mark. Behind a line end it goes on at the text of
the next line, which the tokens tell. -/
def titleFrom? (p : Phrase) (tokens : List Token) (opening close : Char) :
    Nat → List Char → Cursor → Option (List Char × Cursor)
  | 0, _, _ => none
  | fuel + 1, text, c =>
    let goOn (text : List Char) (n : Nat) : Option (List Char × Cursor) :=
      titleFrom? p tokens opening close fuel text (c.advance n)
    match c.rest with
    | [] => none
    | d :: rest =>
      if d = close then some (text.reverse, c.advance 1)
      else if d = opening then none
      else
        let nextLine : Option Nat :=
          if d = '\n' ∨ d = '\r' then
            match tokens.dropWhile fun t => t.stop ≤ c.pos + 1 with
            | t :: _ => if c.pos < t.start then some t.start else none
            | [] => none
          else none
        match nextLine, d, rest with
        | some start, _, _ => goOn ('\n' :: text) (start - c.pos)
        | none, '&', rest =>
          match entity? rest with
          | some (s, n) => goOn (s.reverse ++ text) n
          | none => goOn ('&' :: text) 1
        | none, '\\', '\\' :: '|' :: _ =>
          if p.inTable then goOn ('|' :: text) 3 else goOn ('\\' :: text) 2
        | none, '\\', e :: _ =>
          if Text.isAsciiPunctuation e then goOn (e :: text) 2 else goOn ('\\' :: text) 1
        | none, d, _ => goOn (d :: text) 1

def title? (p : Phrase) (tokens : List Token) (c : Cursor) : Option (List Char × Cursor) :=
  match c.head? with
  | some '"' => titleFrom? p tokens '"' '"' (c.rest.length + 1) [] (c.advance 1)
  | some '\'' => titleFrom? p tokens '\'' '\'' (c.rest.length + 1) [] (c.advance 1)
  | some '(' => titleFrom? p tokens '(' ')' (c.rest.length + 1) [] (c.advance 1)
  | _ => none

structure LinkTarget where
  address : String
  title : String
  /-- The tokens after the link. -/
  rest : List Token

def inlineTarget? (p : Phrase) (tokens : List Token) (c : Cursor) : Option LinkTarget := do
  let c ← c.eat? '('
  let (address, c) ← destination? (p.separator c)
  let c := p.separator c
  let (title, c) := match p.title? tokens c with
    | some (title, c) => (title, p.separator c)
    | none => ([], c)
  let c ← c.eat? ')'
  some ⟨String.ofList (unescape p.inTable address), String.ofList title,
    Token.dropTo c.pos tokens⟩

def labelAt? (p : Phrase) (c : Cursor) : Option (List Char × Cursor) :=
  label? (fun c => some (p.skipMargin c)) c

def ownLabel? (p : Phrase) (start stop : Nat) : Option (List Char) :=
  match p.labelAt? ((p.cursorAt start).bounded stop) with
  | some (label, c) => if c.pos = stop then some label else none
  | none => none

/-- The first token that reaches behind a position, marked as a bracket that closes no label of
its own. -/
def spoilAt? (pos : Nat) : List Token → Option (List Token × List Token)
  | [] => none
  | t :: rest =>
    if t.stop ≤ pos then (spoilAt? pos rest).map fun (all, after) => (t :: all, after)
    else some ({ t with kind := .linkClose false } :: rest, rest)

/-- What a closing bracket refers to by a label: the target, and the tokens after the bracket if
there is none. -/
def reference (p : Phrase) (definitions : List Definition) (start stop : Nat) (viable : Bool)
    (tokens : List Token) : Option LinkTarget × List Token :=
  let lookUp (label : Option (List Char)) (rest : List Token) : Option LinkTarget :=
    (label.bind (findDefinition? definitions)).map fun d => ⟨d.address, d.title, rest⟩
  let own (rest : List Token) : Option LinkTarget × List Token :=
    (if viable then lookUp (p.ownLabel? start stop) rest else none, tokens)
  match tokens with
  | [] => own []
  | t :: rest =>
    let c := p.cursorAt t.start
    match c.rest with
    | '[' :: ']' :: _ => own rest.tail
    | _ =>
      match p.labelAt? c with
      | none => own tokens
      | some (label, behind) =>
        match spoilAt? (behind.pos - 1) tokens with
        | none => (none, tokens)
        | some (spoiled, after) => (lookUp (some label) after, spoiled)

structure Opener where
  image : Bool
  /-- Whether it can still open a link. -/
  active : Bool := true
  /-- The position of the bracket. -/
  start : Nat
  /-- The parts before the bracket, last first. -/
  before : List Inline

def Opener.text (o : Opener) : Inline := .text (if o.image then ['!', '['] else ['['])

structure Reading where
  /-- The parts behind the last opening bracket, last first. -/
  parts : List Inline := []
  /-- The opening brackets, the last one first. -/
  openers : List Opener := []

namespace Reading

def add (r : Reading) (part : Inline) : Reading := { r with parts := part :: r.parts }

def openBracket (r : Reading) (image : Bool) (start : Nat) : Reading :=
  ⟨[], { image, start, before := r.parts } :: r.openers⟩

def giveUp (r : Reading) : Reading :=
  match r.openers with
  | o :: openers => ⟨r.parts ++ o.text :: o.before, openers⟩
  | [] => r

def makeLink (r : Reading) (target : LinkTarget) : Reading :=
  match r.openers with
  | o :: openers =>
    let tag : Tag := if o.image then .image target.address target.title
      else .link false target.address target.title
    let openers := if o.image then openers
      else openers.map fun o => { o with active := o.active && o.image }
    ⟨.wrap tag (emphasize r.parts.reverse) :: o.before, openers⟩
  | [] => r

def finish (r : Reading) : List Inline :=
  emphasize (r.openers.foldl (fun r _ => r.giveUp) r).parts.reverse

end Reading

/-- Reads a closing bracket: the reading after it and the tokens with which to go on. It belongs to
the last opening one; if no link target follows and the text between them is no label, both stand
for themselves. A link holds no other link. -/
def closeBracket (p : Phrase) (definitions : List Definition) (r : Reading) (t : Token)
    (viable : Bool) (tokens : List Token) : Reading × List Token :=
  match r.openers with
  | [] => (r.add (.text [']']), tokens)
  | o :: _ =>
    let fail (tokens : List Token) : Reading × List Token :=
      ((r.giveUp).add (.text [']']), tokens)
    if !o.active then fail tokens
    else match p.inlineTarget? tokens (p.cursorAt t.stop) with
      | some target => (r.makeLink target, target.rest)
      | none =>
        match p.reference definitions o.start t.stop viable tokens with
        | (some target, _) => (r.makeLink target, target.rest)
        | (none, tokens) => fail tokens

/-- Reads what an opening angle bracket starts: an address, a construct of HTML or nothing. -/
def angle (p : Phrase) (t : Token) (tokens : List Token) : Inline × List Token :=
  let c := p.cursorAt t.start
  let address (toMail : Bool) (s : List Char) : Inline × List Token :=
    (.wrap (.link toMail (String.ofList s) "") [.text s],
      Token.dropTo (t.stop + s.length + 1) tokens)
  match uri? c.rest.tail, mail? c.rest.tail, inlineHtml? p.skipMargin c with
  | some s, _, _ => address false s
  | none, some s, _ => address true s
  | none, none, some (s, behind) => (.html s, Token.dropTo behind.pos tokens)
  | none, none, none => (.text ['<'], tokens)

/-- Reads a run of backticks: code, if there is a run of the same length further on. An escaped
run counts without its first backtick. -/
def ticks (p : Phrase) (r : Reading) (t : Token) (count : Nat) (escaped : Bool)
    (tokens : List Token) : Reading × List Token :=
  let n := if escaped then count - 1 else count
  match if n = 0 then none else closingTicks? n tokens with
  | none => (r.add (.text (List.replicate count '\x60')), tokens)
  | some (close, rest) =>
    let r := if escaped then r.add (.text ['\x60']) else r
    let c := p.cursorAt t.stop
    let text := codeText p close.start (c.rest.length + 1) [] c
    (r.add (.code (trimCode text)), rest)

/-- Reads the tokens of a phrase; `fuel` bounds their number. -/
def read (p : Phrase) (definitions : List Definition) : Nat → Reading → List Token → Reading
  | 0, r, _ => r
  | _ + 1, r, [] => r
  | fuel + 1, r, t :: tokens =>
    let goOn (next : Reading × List Token) : Reading := read p definitions fuel next.1 next.2
    match t.kind with
    | .text s | .reference s => goOn (r.add (.text s), tokens)
    | .run mark count opens closes => goOn (r.add (.run mark count opens closes), tokens)
    | .ticks count escaped => goOn (p.ticks r t count escaped tokens)
    | .angle =>
      let (part, rest) := p.angle t tokens
      goOn (r.add part, rest)
    | .imageOpen => goOn (r.openBracket true (t.stop - 1), tokens)
    | .linkOpen => goOn (r.openBracket false (t.stop - 1), tokens)
    | .linkClose viable => goOn (p.closeBracket definitions r t viable tokens)
    | .softBreak => goOn (r.add .softBreak, tokens)
    | .hardBreak backslash => goOn (r.add (.hardBreak backslash), tokens)

def parts (p : Phrase) (definitions : List Definition) : List Inline :=
  (p.read definitions (p.tokens.length + 1) {} p.tokens).finish

end Phrase
end DocSite.Markdown
