import DocSite.Markdown.Entity

namespace DocSite.Markdown

/-- A position in a text: the character before it and what is left. -/
structure Cursor where
  pos : Nat
  /-- The character before the position; there is none at the start. -/
  prev : Option Char
  rest : List Char
  deriving Repr, Inhabited

namespace Cursor

def ofText (s : List Char) : Cursor := ⟨0, none, s⟩

def advance (c : Cursor) : Nat → Cursor
  | 0 => c
  | n + 1 =>
    match c.rest with
    | [] => c
    | d :: rest => advance ⟨c.pos + 1, some d, rest⟩ n

def head? (c : Cursor) : Option Char := c.rest.head?

def eat? (c : Cursor) (d : Char) : Option Cursor :=
  if c.head? = some d then some (c.advance 1) else none

def skip (c : Cursor) (p : Char → Bool) : Cursor := c.advance (c.rest.takeWhile p).length

def upTo (c d : Cursor) : List Char := c.rest.take (d.pos - c.pos)

def bounded (c : Cursor) (stop : Nat) : Cursor := { c with rest := c.rest.take (stop - c.pos) }

end Cursor

def isGap (c : Char) : Bool := c == ' ' || c == '\t' || c == '\x0b' || c == '\x0c'

def isSpace (c : Char) : Bool := isGap c || c == '\n' || c == '\r'

/-- The length of the line end at the start of a text; the end of the text counts as one. -/
def lineEnd? : List Char → Option Nat
  | [] => some 0
  | '\n' :: _ => some 1
  | '\r' :: '\n' :: _ => some 2
  | '\r' :: _ => some 1
  | _ => none

def blankLine? (s : List Char) : Option Nat :=
  let gap := (s.takeWhile isGap).length
  (lineEnd? (s.drop gap)).map (· + gap)

def lineLength : List Char → Nat
  | [] => 0
  | '\n' :: _ => 1
  | _ :: s => lineLength s + 1

/-- A position in the margin of a line, the white space and marks at its start. A tab reaches to the
next column that is a multiple of four and may belong to a mark in part only. -/
structure Margin where
  here : Cursor
  /-- The position from which columns are counted. -/
  origin : Nat
  /-- The columns of the last tab that are not used up. -/
  owed : Nat

namespace Margin

def ofCursor (c : Cursor) : Margin := ⟨c, c.pos, 0⟩

/-- Passes up to `n` columns of white space; the answer counts the columns that are missing. -/
def columnsFrom (m : Margin) (n : Nat) : List Char → Nat × Margin
  | ' ' :: s =>
    if n = 0 then (0, m) else columnsFrom { m with here := m.here.advance 1 } (n - 1) s
  | '\t' :: s =>
    if n = 0 then (0, m)
    else
      let width := 4 - (m.here.pos - m.origin) % 4
      let used := min width n
      let next := m.here.advance 1
      columnsFrom ⟨next, next.pos, width - used⟩ (n - used) s
  | _ => (n, m)

/-- Passes up to `n` columns of white space, first those left of a tab; the answer counts the
columns that are missing. -/
def columns (m : Margin) (n : Nat) : Nat × Margin :=
  let owed := min m.owed n
  columnsFrom { m with owed := m.owed - owed } (n - owed) m.here.rest

def skipAll (m : Margin) : Margin :=
  { m with here := m.here.skip fun c => c == ' ' || c == '\t', owed := 0 }

def atEnd (m : Margin) : Bool :=
  match m.here.rest with
  | [] | '\n' :: _ | '\r' :: _ => true
  | _ => false

def quoteMark? (m : Margin) : Option Margin :=
  (m.here.eat? '>').map fun c => ({ m with here := c }.columns 1).2

end Margin

/-- What holds a block: a quote marks each of its lines, the lines of a list item are indented. -/
inductive Holder where
  | quote
  | item (indent : Nat)
  deriving DecidableEq, Repr

/-- Passes the mark of a holder, if the line belongs to it. A blank line belongs to every item. -/
def Holder.pass? (m : Margin) : Holder → Option Margin
  | .quote => (m.columns 3).2.quoteMark?
  | .item indent =>
    let (missing, next) := m.columns indent
    if missing = 0 ∨ next.atEnd then some next else none

/-- Passes the marks of holders, the outermost first, up to the first that the line does not
belong to. The answer counts the holders that it does belong to. -/
def passHolders (m : Margin) : List Holder → Nat × Margin
  | [] => (0, m)
  | h :: holders =>
    match h.pass? m with
    | none => (0, m)
    | some next =>
      let (n, last) := passHolders next holders
      (n + 1, last)

def skipHolders (holders : List Holder) (c : Cursor) : Cursor :=
  (passHolders (.ofCursor c) holders).2.here

end DocSite.Markdown
