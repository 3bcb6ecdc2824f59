import DocSite.Markdown.Cursor
import DocSite.Markdown.Event
import DocSite.Text.Class

namespace DocSite.Markdown

def runLength (c : Char) (s : List Char) : Nat := (s.takeWhile (· == c)).length

/-- The length of a line that is a rule: at least three equal marks and white space. -/
def ruleLine? (s : List Char) : Option Nat :=
  match s with
  | c :: _ =>
    let line := s.takeWhile fun d => d != '\n' && d != '\r'
    if (c == '*' || c == '-' || c == '_') && line.all (fun d => d == c || d == ' ' || d == '\t') &&
        3 ≤ line.count c then
      (lineEnd? (s.drop line.length)).map (line.length + ·)
    else none
  | [] => none

def headingLevel? (s : List Char) : Option Nat :=
  let level := runLength '#' s
  let next := s[level]?
  if 1 ≤ level ∧ level ≤ 6 ∧ next.all isSpace then some level else none

def underline? (s : List Char) : Option (Nat × Nat) :=
  match s with
  | c :: _ =>
    if c = '=' ∨ c = '-' then
      let n := runLength c s
      (blankLine? (s.drop n)).map fun m => (if c = '=' then 1 else 2, n + m)
    else none
  | [] => none

/-- The mark of a code fence and its length. A fence of backticks has none after it. -/
def fence? (s : List Char) : Option (Char × Nat) :=
  match s with
  | c :: _ =>
    let n := runLength c s
    if (c = '\x60' ∨ c = '~') ∧ 3 ≤ n then
      let info := (s.drop n).take (lineLength (s.drop n))
      if c = '\x60' ∧ info.contains '\x60' then none else some (c, n)
    else none
  | [] => none

/-- The length of a line that closes a fence, without its end. The end of the text closes it. -/
def closingFence? (c : Char) (n : Nat) (s : List Char) : Option Nat :=
  if s.isEmpty then some 0
  else
    let marks := runLength c s
    let spaces := runLength ' ' (s.drop marks)
    if marks < n then none
    else (lineEnd? (s.drop (marks + spaces))).map fun _ => marks + spaces

/-- The mark of a list item: the character that tells lists apart, the number that it starts with
and the length. -/
structure ListMark where
  delimiter : Char
  /-- Present in ordered lists. -/
  number : Option Nat
  length : Nat
  deriving DecidableEq, Repr

/-- The mark of an item at the start of a text. An ordered one has up to nine digits. -/
def listMark? (s : List Char) : Option ListMark :=
  match s with
  | [] => none
  | c :: _ =>
    if c = '-' ∨ c = '+' ∨ c = '*' then some ⟨c, none, 1⟩
    else
      let digits := (s.take 9).takeWhile Char.isDigit
      match digits, s.drop digits.length with
      | _ :: _, d :: _ =>
        if d = '.' ∨ d = ')' then some ⟨d, some (readNumber 10 digits), digits.length + 1⟩
        else none
      | _, _ => none

def endsWord (s : List Char) : Bool :=
  match s with
  | [] | ' ' :: _ | '\t' :: _ | '\n' :: _ | '\r' :: _ => true
  | _ => false

def twoBlankLines (s : List Char) : Bool :=
  match blankLine? s with
  | some n => (blankLine? (s.drop n)).isSome
  | none => false

/-- Passes the mark of a list item whose margin has `outer` columns; the indent of the lines that
belong to the item is counted from the start of the margin. A rule is no item. -/
def itemMark? (m : Margin) (outer : Nat) : Option (ListMark × Nat × Margin) := do
  let mark ← listMark? m.here.rest
  if mark.number.isNone ∧ (ruleLine? m.here.rest).isSome then none
  else
    let (missing, next) := { m with here := m.here.advance mark.length }.columns 1
    if missing ≠ 0 ∧ ¬ next.atEnd then none
    else
      let indent := outer + mark.length + 1
      if (blankLine? next.here.rest).isSome then some (mark, indent, next)
      else
        let (lacking, text) := next.columns 4
        if lacking = 0 then some (mark, indent, next) else some (mark, indent + (4 - lacking), text)

def blockElements : List String := [
  "address", "article", "aside", "base", "basefont", "blockquote", "body", "caption", "center",
  "col", "colgroup", "dd", "details", "dialog", "dir", "div", "dl", "dt", "fieldset",
  "figcaption", "figure", "footer", "form", "frame", "frameset", "h1", "h2", "h3", "h4", "h5",
  "h6", "head", "header", "hr", "html", "iframe", "legend", "li", "link", "main", "menu",
  "menuitem", "nav", "noframes", "ol", "optgroup", "option", "p", "param", "search", "section",
  "summary", "table", "tbody", "td", "tfoot", "th", "thead", "title", "tr", "track", "ul"]

/-- The elements whose content is not HTML, shorter names first, each with its end tag. -/
def rawElements : List (String × String) := [
  ("pre", "</pre>"), ("style", "</style>"), ("script", "</script>"), ("textarea", "</textarea>")]

def lowerAscii (s : List Char) : List Char := s.map Char.toLower

/-- The text that ends a block of HTML which starts with these characters after its `<`, where the
start decides the end. -/
def htmlBlockEnd? (s : List Char) : Option String :=
  let raw := rawElements.find? fun (name, _) =>
    lowerAscii (s.take name.length) == name.toList &&
      match s[name.length]? with
      | none => true
      | some c => isSpace c || c == '>'
  let starts (word : String) : Bool := (Text.after? word.toList s).isSome
  match raw with
  | some (_, stop) => some stop
  | none =>
    if starts "!--" then some "-->"
    else if starts "?" then some "?>"
    else if starts "![CDATA[" then some "]]>"
    else match s with
      | '!' :: c :: _ => if c.isAlpha then some ">" else none
      | _ => none

def startsElement (s : List Char) : Bool :=
  let s := match s with
    | '/' :: rest => rest
    | s => s
  let name := s.takeWhile Char.isAlphanum
  blockElements.contains (String.ofList (lowerAscii name)) &&
    match s.drop name.length with
    | [] | ' ' :: _ | '\t' :: _ | '\n' :: _ | '\r' :: _ | '>' :: _ | '/' :: '>' :: _ => true
    | _ => false

def Alignment.colon (first : Bool) : Alignment → Alignment
  | .none => if first then .left else .right
  | .left => if first then .left else .center
  | a => a

structure DelimiterRow where
  /-- The alignments of the finished columns, last first. -/
  columns : List Alignment := []
  current : Alignment := .none
  /-- Nothing was read of the current column. -/
  first : Bool := true
  pipe : Bool := false
  hyphen : Bool := false
  /-- The current column has a hyphen. -/
  dashed : Bool := false

def DelimiterRow.read? (r : DelimiterRow) : Char → Option DelimiterRow
  | ' ' => some r
  | ':' => some { r with current := r.current.colon r.first, first := false }
  | '-' => some { r with first := false, hyphen := true, dashed := true }
  | '|' =>
    if r.dashed then
      some { r with columns := r.current :: r.columns, current := .none, first := true,
                    pipe := true, dashed := false }
    else none
  | _ => none

/-- The alignments of the columns of a table whose delimiter row starts here, and the length of
the row with its end. -/
def delimiterRow? (s : List Char) : Option (List Alignment × Nat) := do
  let line := s.takeWhile fun c => c != '\n' && c != '\r'
  let gap := (line.takeWhile (· == ' ')).length
  if 3 < gap then none
  else
    let (start, body) : DelimiterRow × List Char := match line.drop gap with
      | '|' :: rest => ({ pipe := true }, rest)
      | rest => ({}, rest)
    let row ← body.foldlM DelimiterRow.read? start
    let columns := if row.first then row.columns else row.current :: row.columns
    if row.pipe && row.hyphen then
      some (columns.reverse, line.length + (lineEnd? (s.drop line.length)).getD 0)
    else none

/-- The number of cells in a header row with this many pipes, given what follows the last of them:
a pipe at either end of the row divides nothing. -/
def headerCells (line : List Char) (pipes : Nat) (afterLast : List Char) : Nat :=
  let inner := if (line.dropWhile isGap).head? = some '|' then pipes - 1 else pipes
  if (blankLine? afterLast).isSome then inner else inner + 1

end DocSite.Markdown
