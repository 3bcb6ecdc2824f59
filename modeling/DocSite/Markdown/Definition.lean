import DocSite.Markdown.Block

namespace DocSite.Markdown

/-- The number of pipes in the first line of a text that have no backslash before them, and what
follows the last one. -/
def pipesOf (escaped : Bool) (n : Nat) (after : List Char) : List Char → Nat × List Char
  | [] => (n, after)
  | c :: s =>
    if c = '\n' ∨ c = '\r' then (n, after)
    else if c = '|' ∧ !escaped then pipesOf false (n + 1) s s
    else pipesOf (c = '\\') n after s

/-- The columns of a table whose header row starts at `c` and has `pipes` pipes, given the start of
the next line; and the position behind the delimiter row. -/
def tableHead? (o : Outline) (c next : Cursor) (pipes : Nat) (afterPipe : List Char) :
    Option (List Alignment × Cursor) := do
  let (current, m) := o.passMargin next
  if !current then none
  else
    let (columns, n) ← delimiterRow? m.here.rest
    if headerCells c.rest pipes afterPipe = columns.length then
      some (columns, m.here.advance n)
    else none

/-- Whether a list item that starts here ends a paragraph. Where the line belongs to the
paragraph, an item does so only if it is not empty and does not start in the middle of a list. -/
def itemInterrupts (inTable current : Bool) (s : List Char) : Bool :=
  match listMark? s with
  | none => false
  | some mark =>
    let rest := s.drop mark.length
    endsWord rest &&
      (!current || inTable || ((mark.number.getD 1 == 1) && !twoBlankLines rest))

def blockInterrupts (inTable current : Bool) (s : List Char) : Bool :=
  (lineEnd? s).isSome || (ruleLine? s).isSome || (headingLevel? s).isSome || (fence? s).isSome ||
    s.head? == some '>' || itemInterrupts inTable current s ||
    match s with
    | '<' :: rest => (htmlBlockEnd? rest).isSome || startsElement rest
    | _ => false

/-- Whether the line at `c` ends a paragraph. A table does so only if its header row starts with a
pipe. -/
def interrupts (o : Outline) (current : Bool) (c : Cursor) : Bool :=
  blockInterrupts false current c.rest ||
    if c.head? = some '|' then
      let (pipes, after) := pipesOf false 0 [] c.rest
      let line := (c.rest.takeWhile fun d => d != '\n' && d != '\r').length
      let next := c.advance line
      match lineEnd? next.rest with
      | some 0 | none => false
      | some n => (tableHead? o c (next.advance n) pipes after).isSome
    else false

def nextTextLine? (o : Outline) (c : Cursor) : Option Margin :=
  let (current, m) := o.passMargin c
  let (missing, m) := m.columns 4
  if missing ≠ 0 ∧ (interrupts o current m.here ∨ (underline? m.here.rest).isSome) then none
  else some m

def definitionSpace? (o : Outline) : Nat → Nat → Cursor → Option (Cursor × Nat)
  | 0, _, _ => none
  | fuel + 1, lines, c =>
    let c := c.skip isGap
    match lineEnd? c.rest with
    | none => some (c, lines)
    | some n =>
      if lines = 1 then none
      else do definitionSpace? o fuel 1 (← nextTextLine? o (c.advance n)).here

/-- Reads a title up to its closing mark; it may go on over several lines. -/
def definitionTitleFrom? (o : Outline) (close : Char) : Nat → List Char → Cursor →
    Option (List Char × Cursor)
  | 0, _, _ => none
  | fuel + 1, text, c =>
    match c.rest with
    | [] => none
    | '\\' :: d :: _ =>
      if d = '\n' ∨ d = '\r' then definitionTitleFrom? o close fuel ('\\' :: text) (c.advance 1)
      else definitionTitleFrom? o close fuel (d :: '\\' :: text) (c.advance 2)
    | d :: _ =>
      if d = close then some (text.reverse, c.advance 1)
      else if d = '(' ∧ close = ')' then none
      else match lineEnd? c.rest with
        | some n => do
          let m ← nextTextLine? o (c.advance n)
          definitionTitleFrom? o close fuel ('\n' :: text) m.skipAll.here
        | none => definitionTitleFrom? o close fuel (d :: text) (c.advance 1)

def titleClose? : Char → Option Char
  | '"' => some '"'
  | '\'' => some '\''
  | '(' => some ')'
  | _ => none

def definitionTitle? (o : Outline) (c : Cursor) : Option (List Char × Cursor) := do
  let close ← titleClose? (← c.head?)
  definitionTitleFrom? o close (c.rest.length + 1) [] (c.advance 1)

/-- A definition and the position behind it. A title that does not end its line is none; it must
then stand on a line of its own. -/
def definition? (o : Outline) (c : Cursor) : Option (Definition × Cursor) := do
  let fuel := c.rest.length + 2
  let go (d : Cursor) : Option Cursor :=
    let (current, m) := o.passMargin d
    if interrupts o current m.here then none else some m.here
  let (label, c) ← label? go c
  let c ← c.eat? ':'
  let (c, _) ← definitionSpace? o fuel 0 c
  let (address, behind) ← destination? c
  if behind.pos = c.pos then none
  else
    let text (s : List Char) : String := String.ofList (unescape false s)
    let plain : Definition × Cursor := (⟨labelKey label, text address, ""⟩, behind)
    match definitionSpace? o fuel 0 behind with
    | none => some plain
    | some (next, lines) =>
      if next.pos = behind.pos then none
      else match definitionTitle? o next with
        | some (title, last) =>
          if (blankLine? last.rest).isSome then
            some (⟨labelKey label, text address, text title⟩, last)
          else if lines = 0 then none else some plain
        | none => if lines = 0 then none else some plain

end DocSite.Markdown
