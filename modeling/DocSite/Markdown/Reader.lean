import DocSite.Markdown.Definition

namespace DocSite.Markdown

abbrev Step := Outline × Cursor

namespace Reader

def lineText (s : List Char) : List Char :=
  match s.reverse with
  | c :: '\r' :: rest => (c :: rest).reverse
  | _ => s

def takeLine (c : Cursor) : List Char × Cursor :=
  let n := lineLength c.rest
  (lineText (c.rest.take n), c.advance n)

def owedSpaces (m : Margin) : List Char := List.replicate m.owed ' '

/-- Reads a block of HTML whose last line holds `stop`, or that ends at a blank line. -/
def htmlLines (o : Outline) (stop : Option String) : Nat → Nat → List HtmlLine → Cursor →
    List HtmlLine × Cursor
  | 0, _, lines, c => (lines, c)
  | fuel + 1, indent, lines, c =>
    let (line, next) := takeLine c
    let lines := lines ++ [⟨indent, String.ofList line⟩]
    let (current, m) := o.passMargin next
    let ended := match stop with
      | some word => Text.hasWord word.toList line
      | none => (blankLine? m.here.rest).isSome
    if !current || ended || m.here.rest.isEmpty then (lines, next)
    else htmlLines o stop fuel m.owed lines m.here

def html (o : Outline) (stop : Option String) (indent : Nat) (c : Cursor) : Step :=
  let o := o.finishList
  let (lines, next) := htmlLines o stop (c.rest.length + 1) indent [] c
  (o.append (.html lines), next)

def fencedLines (o : Outline) (mark : Char) (n indent : Nat) : Nat → List Char → Cursor →
    List Char × Cursor
  | 0, text, c => (text, c)
  | fuel + 1, text, c =>
    let (current, m) := o.passMargin c
    if !current then (text, c)
    else
      let m := (m.columns indent).2
      let (missing, inner) := m.columns (4 - indent)
      match if missing = 0 then none else closingFence? mark n inner.here.rest with
      | some k =>
        let c := inner.here.advance k
        (text, c.advance ((blankLine? c.rest).getD 0))
      | none =>
        let (line, next) := takeLine m.here
        fencedLines o mark n indent fuel (text ++ owedSpaces m ++ line) next

/-- Reads a fenced block. What follows the opening fence on its line is not part of the code. -/
def fenced (o : Outline) (mark : Char) (n indent : Nat) (c : Cursor) : Step :=
  let o := o.finishList
  let body := c.advance (lineLength c.rest)
  let (text, next) := fencedLines o mark n indent (c.rest.length + 1) [] body
  (o.append (.code (String.ofList text)), next)

/-- Reads the lines of an indented block. Blank lines belong to it only if another line follows;
`kept` is the text up to the last line that is not blank. -/
def indentedLines (o : Outline) : Nat → (kept text : List Char) → (blank : Bool) → Margin →
    List Char × Bool × Cursor
  | 0, kept, _, blank, m => (kept, blank, m.here)
  | fuel + 1, kept, text, blank, m =>
    let (line, next) := takeLine m.here
    let text := text ++ owedSpaces m ++ line
    let kept := if blank then kept else text
    let (current, inner) := o.passMargin next
    let (missing, inner) := inner.columns 4
    if !current || (missing != 0 && !inner.atEnd) || inner.here.rest.isEmpty then
      (kept, blank, next)
    else indentedLines o fuel kept text (blankLine? inner.here.rest).isSome inner

def indented (o : Outline) (m : Margin) : Step :=
  let o := o.finishList
  let (text, blank, next) := indentedLines o (m.here.rest.length + 1) [] [] false m
  ({ o.append (.code (String.ofList text)) with afterBlank := blank }, next)

/-- The backslash of a line break that ends a phrase: it stands for itself. -/
def lastBackslash (lineBreak : Option Token) : List Token :=
  match lineBreak with
  | some ⟨start, _, .hardBreak true⟩ => [⟨start, start + 1, .text ['\\']⟩]
  | _ => []

def headingLength (s : List Char) : Nat :=
  let text := Text.dropEndWhile (fun c => c == '\n' || c == '\r' || c == ' ') s
  let before := Text.dropEndWhile (· == '#') text
  let trimmed := Text.dropEndWhile (· == ' ') before
  if before.isEmpty then 0
  else if trimmed.length < before.length then trimmed.length else text.length

def cutLast (stop : Nat) (tokens : List Token) : List Token :=
  match tokens.getLast? with
  | some ⟨start, last, .text s⟩ =>
    tokens.dropLast ++ [⟨start, min stop last, .text (s.take (stop - start))⟩]
  | _ => tokens

def heading (o : Outline) (level : Nat) (c : Cursor) : Step :=
  let o := o.finishList
  let phrase (tokens : List Token) (source : Cursor) : Block :=
    .heading level ⟨tokens, source, o.holders, false⟩
  let c := c.advance level
  match lineEnd? c.rest with
  | some n => (o.append (phrase [] (c.bounded c.pos)), c.advance n)
  | none =>
    let start := c.skip isGap
    let line := readLine .text start
    let stop := start.pos + headingLength (start.upTo line.here)
    let tokens := cutLast stop (line.tokens ++ lastBackslash line.lineBreak)
    (o.append (phrase tokens (start.bounded line.here.pos)), line.here)

def cells (o : Outline) : Nat → List Phrase → Cursor → List Phrase × Cursor
  | 0, row, c => (row, c)
  | fuel + 1, row, c =>
    let start := (c.eat? '|').getD c
    let inner := start.skip isGap
    match lineEnd? inner.rest with
    | some n => (row, inner.advance n)
    | none =>
      let line := readLine .cell inner
      let cell : Phrase := ⟨line.tokens, start.bounded line.here.pos, o.holders, true⟩
      cells o fuel (row ++ [cell]) line.here

/-- A row with exactly `n` cells: surplus cells are dropped and missing ones are empty. -/
def fitRow (o : Outline) (n : Nat) (here : Cursor) (row : List Phrase) : List Phrase :=
  row.take n ++
    List.replicate (n - row.length) ⟨[], here.bounded here.pos, o.holders, true⟩

def rows (o : Outline) (n : Nat) : Nat → List (List Phrase) → Cursor →
    List (List Phrase) × Cursor
  | 0, found, c => (found, c)
  | fuel + 1, found, c =>
    let (current, m) := o.passMargin c
    let start := m.skipAll.here
    if !current || blockInterrupts true current start.rest then (found, c)
    else
      let (row, next) := cells o (start.rest.length + 1) [] start
      if row.isEmpty then (found, c)
      else rows o n fuel (found ++ [fitRow o n next row]) next

/-- Reads a table whose header row starts at `c` and whose other rows start at `body`. -/
def table (o : Outline) (columns : List Alignment) (c body : Cursor) : Step :=
  let fuel := c.rest.length + 1
  let n := columns.length
  let (head, next) := cells o fuel [] c
  let (body, last) := rows o n fuel [] body
  (o.append (.table columns (fitRow o n next head) body), last)

/-- Reads a paragraph from its second line on: `tokens` are those of the lines before, `line` is
the last of them. A line of hyphens or equals signs turns it into a heading. -/
def paragraphLines (o : Outline) (start : Cursor) : Nat → List Token → LineTokens → Step
  | 0, _, line => (o, line.here)
  | fuel + 1, tokens, line =>
    let tokens := tokens ++ line.tokens
    let closed := tokens ++ lastBackslash line.lineBreak
    let phrase (stop : Cursor) : Phrase := ⟨closed, start.bounded stop.pos, o.holders, false⟩
    let (current, m) := o.passMargin line.here
    let (missing, m) := m.columns 4
    let underline := if missing ≠ 0 ∧ current then underline? m.here.rest else none
    match underline with
    | some (level, n) =>
      let stop := m.here.advance n
      (o.append (.heading level (phrase stop)), stop)
    | none =>
      if (missing != 0 && interrupts o current m.here) || m.skipAll.atEnd then
        (o.append (.paragraph (phrase line.here)), line.here)
      else
        paragraphLines o start fuel (tokens ++ line.lineBreak.toList)
          (readLine .text m.skipAll.here)

/-- Reads a paragraph, or a table if the next line is a delimiter row that fits the first line. -/
def paragraph (o : Outline) (c : Cursor) : Step :=
  let o := o.finishList
  let line := readLine .text c
  let table? := match line.lineBreak with
    | none | some ⟨_, _, .hardBreak true⟩ => none
    | some _ => if line.pipes = 0 then none else tableHead? o c line.here line.pipes line.afterPipe
  match table? with
  | some (columns, body) => table o columns c body
  | none => paragraphLines o c (c.rest.length + 1) [] line

def definitions : Nat → Outline → Cursor → Step
  | 0, o, c => paragraph o c
  | fuel + 1, o, c =>
    match definition? o c with
    | none => paragraph o c
    | some (d, behind) =>
      let o := o.define d
      match blankLine? behind.rest with
      | none => (o.finishList, behind)
      | some n =>
        let next := behind.advance n
        let (current, m) := o.passMargin next
        let (missing, m) := m.columns 4
        if missing ≠ 0 ∧ interrupts o current m.here then (o.finishList, next)
        else definitions fuel o m.skipAll.here

/-- Reads the block that starts at the text of a line, after `indent` columns of white space. -/
def leaf (o : Outline) (indent : Nat) (c : Cursor) : Step :=
  let s := c.rest
  let htmlStart : Option (Option String) := match s with
    | '<' :: rest =>
      match htmlBlockEnd? rest with
      | some stop => some (some stop)
      | none => if startsElement rest || isTagLine c then some none else none
    | _ => none
  match htmlStart with
  | some stop => html o stop indent c
  | none =>
    match ruleLine? s, headingLevel? s, fence? s with
    | some n, _, _ => (o.finishList.append .rule, c.advance n)
    | none, some level, _ => heading o level c
    | none, none, some (mark, n) => fenced o mark n indent c
    | none, none, none => definitions (s.length + 1) o c

/-- Opens the quotes and list items that start in a line. The answer has the margin behind their
marks, or the position behind the line if it ends in the mark of an item. -/
def openHolders : Nat → Outline → Margin → Outline × (Margin ⊕ Cursor)
  | 0, o, m => (o, .inl m)
  | fuel + 1, o, m =>
    let (missing, inner) := m.columns 4
    if missing = 0 then (o, .inl m)
    else match itemMark? inner (4 - missing) with
      | some (mark, indent, behind) =>
        let o := (o.continueList mark).push (.item indent)
        match blankLine? behind.here.rest with
        | some n => ({ o with bareItem := true }, .inr (behind.here.advance n))
        | none => openHolders fuel o behind
      | none =>
        match inner.quoteMark? with
        | some behind => openHolders fuel (o.finishList.push .quote) behind
        | none => (o, .inl m)

/-- Reads the block that starts at a line. The line first goes on with the holders that are open, as
far as it belongs to them, and may then open others. -/
def block (o : Outline) (c : Cursor) : Step :=
  let (n, m) := passHolders (.ofCursor c) o.holders
  match openHolders (c.rest.length + 1) (o.keepHolders n) m with
  | (o, .inr next) => (o, next)
  | (o, .inl m) =>
    match blankLine? m.here.rest with
    | some n => (o.blankLine, m.here.advance n)
    | none =>
      let (missing, inner) := m.columns 4
      if missing = 0 then indented o inner else leaf o (4 - missing) inner.here

/-- Reads blocks up to the end of the text; `fuel` bounds their number. -/
def blocks : Nat → Outline → Cursor → Outline
  | 0, o, _ => o
  | fuel + 1, o, c =>
    if c.rest.isEmpty then o
    else
      let (o, next) := block o c
      blocks fuel o next

end Reader

def readDocument (text : List Char) : Outline :=
  Reader.blocks (text.length + 1) {} (.ofText text)

end DocSite.Markdown
