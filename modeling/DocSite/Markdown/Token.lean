import DocSite.Markdown.Target

namespace DocSite.Markdown

inductive TokenKind where
  | text (s : List Char)
  /-- The text of a character reference. -/
  | reference (s : List Char)
  /-- A run of `*`, `_` or `~` that may start or end an emphasis. -/
  | run (mark : Char) (count : Nat) (opens closes : Bool)
  /-- A run of backticks; a backslash may stand before it. -/
  | ticks (count : Nat) (escaped : Bool)
  | angle
  | imageOpen
  | linkOpen
  /-- A closing bracket, and whether the text before it may be a label. -/
  | linkClose (viable : Bool)
  | softBreak
  /-- A hard line break, and whether it is written with a backslash. -/
  | hardBreak (backslash : Bool)
  deriving Repr, Inhabited

structure Token where
  start : Nat
  stop : Nat
  kind : TokenKind
  deriving Repr, Inhabited

namespace Token

def cutBefore (t : Token) (pos : Nat) : Token :=
  if pos ≤ t.start then t
  else match t.kind with
    | .text s => ⟨pos, t.stop, .text (s.drop (pos - t.start))⟩
    | kind => ⟨pos, t.stop, kind⟩

def dropTo (pos : Nat) (tokens : List Token) : List Token :=
  match tokens.dropWhile fun t => t.stop ≤ pos with
  | t :: rest => t.cutBefore pos :: rest
  | [] => []

end Token

/-- Where a line is read: in a table a pipe ends a cell. -/
inductive LineMode where
  | text
  | cell
  deriving DecidableEq, Repr

structure LineTokens where
  tokens : List Token
  /-- The line break at the end, if a line end was passed. -/
  lineBreak : Option Token
  /-- The position behind the line. -/
  here : Cursor
  /-- The number of pipes that could divide cells. -/
  pipes : Nat
  /-- What follows the last pipe. -/
  afterPipe : List Char

structure RunContext where
  mark : Char
  count : Nat
  /-- The character before the run; there is none at the start of the text. -/
  before : Option Char
  /-- The character after the run; there is none at the end of the text. -/
  after : Option Char
  /-- A cell starts just before the run. -/
  atCellStart : Bool
  mode : LineMode

namespace RunContext

def insideWords (r : RunContext) : Bool := r.mark == '*' || (r.mark == '~' && 1 < r.count)

def opens (r : RunContext) : Bool :=
  match r.after, r.before with
  | none, _ => false
  | some after, before =>
    if Text.isBlank after then false
    else match before with
      | none => true
      | some before =>
        if r.mode = .cell ∧ r.atCellStart then true
        else if r.mode = .cell ∧ after = '|' then false
        else if r.insideWords && !Text.isPunctuation after then true
        else if r.mark == '~' && before == '~' && !Text.isPunctuation after then true
        else Text.isBlank before || Text.isPunctuation before

def closes (r : RunContext) : Bool :=
  match r.before, r.after with
  | none, _ => false
  | some before, after =>
    if Text.isBlank before then false
    else match after with
      | none => true
      | some after =>
        if r.mode = .cell ∧ r.atCellStart then false
        else if r.mode = .cell ∧ after = '|' then true
        else if r.insideWords && !Text.isPunctuation before then true
        else if r.mark == '~' && before == '~' then true
        else Text.isBlank after || Text.isPunctuation after

end RunContext

structure LineReader where
  mode : LineMode
  /-- The finished tokens, last first. -/
  done : List Token := []
  /-- The characters of the text token in progress, last first. -/
  word : List Char := []
  /-- The characters that were passed, last first. -/
  back : List Char := []
  pipes : Nat := 0
  afterPipe : List Char := []

namespace LineReader

def flush (l : LineReader) (pos : Nat) : LineReader :=
  if l.word.isEmpty then l
  else { l with done := ⟨pos - l.word.length, pos, .text l.word.reverse⟩ :: l.done, word := [] }

def flushWithout (l : LineReader) (n pos : Nat) : LineReader :=
  { l with word := l.word.drop n }.flush (pos - n)

def push (l : LineReader) (s : List Char) : LineReader := { l with word := s.reverse ++ l.word }

def add (l : LineReader) (start stop : Nat) (kind : TokenKind) : LineReader :=
  { l.flush start with done := ⟨start, stop, kind⟩ :: (l.flush start).done }

def finish (l : LineReader) (here : Cursor) (lineBreak : Option Token) : LineTokens :=
  ⟨l.done.reverse, lineBreak, here, l.pipes, l.afterPipe⟩

def endLine (l : LineReader) (c : Cursor) (n : Nat) : LineTokens :=
  let next := c.advance n
  let backslashes := runLength '\\' l.back
  if backslashes % 2 = 1 ∧ !next.rest.isEmpty then
    (l.flushWithout 1 c.pos).finish next (some ⟨c.pos - 1, next.pos, .hardBreak true⟩)
  else
    let gap := (l.back.takeWhile isGap).length
    let l := l.flushWithout gap c.pos
    if 2 ≤ gap then l.finish next (some ⟨c.pos - gap, next.pos, .hardBreak false⟩)
    else l.finish next (some ⟨c.pos, next.pos, .softBreak⟩)

def endHere (l : LineReader) (c : Cursor) : LineTokens :=
  (l.flushWithout (l.word.takeWhile isGap).length c.pos).finish c none

def runAt (l : LineReader) (c : Cursor) (mark : Char) : RunContext :=
  let count := runLength mark c.rest
  { mark, count, before := c.prev, after := c.rest[count]?, mode := l.mode
    atCellStart := match l.back, c.prev with
      | '|' :: '\\' :: _, _ => false
      | '|' :: _, _ => true
      | [], prev => prev == some '|'
      | _, _ => false }

/-- What is read at a position: so many characters, and the line after them. -/
abbrev Reading := LineReader × Nat

def readBackslash (l : LineReader) (c : Cursor) : Reading :=
  match c.rest with
  | _ :: d :: rest =>
    if !Text.isAsciiPunctuation d then (l.push ['\\'], 1)
    else
      let l := l.flush c.pos
      match d, rest with
      | '\x60', rest =>
        let count := runLength '\x60' rest + 1
        (l.add (c.pos + 1) (c.pos + 1 + count) (.ticks count true), count + 1)
      | '\\', '|' :: _ => if l.mode = .cell then (l.push ['|'], 3) else (l.push ['\\'], 2)
      | d, _ => (l.push [d], 2)
  | _ => (l.push ['\\'], 1)

/-- Reads a run of marks. Three tildes or more mean nothing. -/
def readRun (l : LineReader) (c : Cursor) (mark : Char) : Reading :=
  let r := l.runAt c mark
  let valid := mark != '~' || r.count ≤ 2
  if (r.opens || r.closes) && valid then
    (l.add c.pos (c.pos + r.count) (.run mark r.count r.opens r.closes), r.count)
  else (l.push (List.replicate r.count mark), r.count)

def read (l : LineReader) (c : Cursor) : Reading :=
  let mark (n : Nat) (kind : TokenKind) : Reading := (l.add c.pos (c.pos + n) kind, n)
  match c.rest with
  | '\\' :: _ => l.readBackslash c
  | '*' :: _ => l.readRun c '*'
  | '_' :: _ => l.readRun c '_'
  | '~' :: _ => l.readRun c '~'
  | '\x60' :: rest =>
    let count := runLength '\x60' rest + 1
    mark count (.ticks count false)
  | '<' :: '\\' :: _ => (l.push ['<'], 1)
  | '<' :: _ => mark 1 .angle
  | '!' :: '[' :: _ => mark 2 .imageOpen
  | '[' :: _ => mark 1 .linkOpen
  | ']' :: _ => mark 1 (.linkClose true)
  | '&' :: rest =>
    match entity? rest with
    | some (text, n) => mark n (.reference text)
    | none => (l.push ['&'], 1)
  | '|' :: rest =>
    if c.prev = some '\\' then (l.push ['|'], 1)
    else ({ l.push ['|'] with pipes := l.pipes + 1, afterPipe := rest }, 1)
  | d :: _ => (l.push [d], 1)
  | [] => (l, 1)

/-- Reads a line; `fuel` bounds the number of its characters. -/
def run : Nat → LineReader → Cursor → LineTokens
  | 0, l, c => l.endHere c
  | fuel + 1, l, c =>
    let step : LineTokens :=
      let (next, n) := l.read c
      run fuel { next with back := (c.rest.take n).reverse ++ l.back } (c.advance n)
    match c.rest with
    | [] => l.endHere c
    | d :: _ =>
      if d = '\n' ∨ d = '\r' then
        match l.mode with
        | .cell => l.endHere c
        | .text => l.endLine c ((lineEnd? c.rest).getD 1)
      else if d = '|' ∧ l.mode = .cell ∧ c.prev ≠ some '\\' then l.endHere c
      else step

end LineReader

def readLine (mode : LineMode) (c : Cursor) : LineTokens :=
  LineReader.run c.rest.length { mode } c

end DocSite.Markdown
