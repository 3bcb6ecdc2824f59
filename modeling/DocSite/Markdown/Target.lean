import DocSite.Markdown.Raw
import DocSite.Text.Blank

namespace DocSite.Markdown

/-- Replaces escapes and character references in a destination or title. In a table a pipe is
written with a backslash before it. -/
def unescape (inTable : Bool) : List Char → List Char
  | [] => []
  | c :: s =>
    match c, s with
    | '\\', '\\' :: '|' :: rest =>
      if inTable then '|' :: unescape inTable rest else '\\' :: unescape inTable ('|' :: rest)
    | '\\', d :: rest =>
      if Text.isAsciiPunctuation d then d :: unescape inTable rest
      else '\\' :: unescape inTable (d :: rest)
    | '&', s =>
      match entity? s with
      | some (text, n) => text ++ unescape inTable (s.drop (n - 1))
      | none => '&' :: unescape inTable s
    | '\r', s => unescape inTable s
    | c, s => c :: unescape inTable s
termination_by s => s.length
decreasing_by all_goals (simp_wf; try omega)

def nestingLimit : Nat := 32

def pointedLength? : List Char → Option Nat
  | [] => none
  | '\n' :: _ | '\r' :: _ | '<' :: _ => none
  | '>' :: _ => some 0
  | '\\' :: d :: s =>
    if Text.isAsciiPunctuation d then (pointedLength? s).map (· + 2)
    else (pointedLength? (d :: s)).map (· + 1)
  | _ :: s => (pointedLength? s).map (· + 1)

/-- The length of a destination without brackets; `depth` parentheses are open. -/
def plainLength? (depth : Nat) : List Char → Option Nat
  | [] => if depth = 0 then some 0 else none
  | '\\' :: d :: s =>
    if Text.isAsciiPunctuation d then (plainLength? depth s).map (· + 2)
    else (plainLength? depth (d :: s)).map (· + 1)
  | '(' :: s =>
    if nestingLimit < depth then none else (plainLength? (depth + 1) s).map (· + 1)
  | ')' :: s =>
    match depth with
    | 0 => some 0
    | depth + 1 => (plainLength? depth s).map (· + 1)
  | c :: s =>
    if c ≤ ' ' then if depth = 0 then some 0 else none
    else (plainLength? depth s).map (· + 1)

def destination? (c : Cursor) : Option (List Char × Cursor) :=
  match c.rest with
  | '<' :: s => (pointedLength? s).map fun n => (s.take n, c.advance (n + 2))
  | s => (plainLength? 0 s).map fun n => (s.take n, c.advance n)

structure LabelText where
  /-- The characters, last first. -/
  text : List Char := []
  blank : Bool := true
  size : Nat := 0

/-- Reads white space inside a label, with at most one line end. The answer has the number of
columns it counts for; a line end and a tab count for two. -/
def labelSpace? (next : Cursor → Option Cursor) : Nat → Bool → Nat → Cursor →
    Option (Nat × Cursor)
  | 0, _, n, c => some (n, c)
  | fuel + 1, broken, n, c =>
    match c.rest with
    | [] => some (n, c)
    | d :: _ =>
      if !isSpace d then some (n, c)
      else match lineEnd? c.rest with
        | some k =>
          if broken then none
          else do labelSpace? next fuel true (n + 2) (← next (c.advance k))
        | none => labelSpace? next fuel broken (n + if d = ' ' then 1 else 2) (c.advance 1)

/-- Reads a label up to its closing bracket. White space counts as one space. -/
def labelFrom? (next : Cursor → Option Cursor) : Nat → LabelText → Cursor →
    Option (List Char × Cursor)
  | 0, _, _ => none
  | fuel + 1, l, c =>
    if 1000 ≤ l.size then none
    else match c.rest with
      | [] => none
      | '[' :: _ => none
      | ']' :: _ => if l.blank then none else some (l.text.reverse, c.advance 1)
      | '\\' :: d :: _ =>
        labelFrom? next fuel ⟨d :: '\\' :: l.text, l.blank, l.size + 2⟩ (c.advance 2)
      | d :: _ =>
        if isSpace d then do
          let (_, c') ← labelSpace? next c.rest.length false 0 c
          labelFrom? next fuel ⟨' ' :: l.text, l.blank, l.size + (c'.pos - c.pos)⟩ c'
        else labelFrom? next fuel ⟨d :: l.text, false, l.size + 1⟩ (c.advance 1)

/-- A label in brackets and the position behind it. The cursor stands at the opening bracket. -/
def label? (next : Cursor → Option Cursor) (c : Cursor) : Option (List Char × Cursor) := do
  let inside ← c.eat? '['
  labelFrom? next (inside.rest.length + 1) {} inside

/-- The form of a label that decides which definition it refers to: without regard to case and to
white space at its ends. -/
def labelKey (label : List Char) : List Char :=
  (Text.trimWhile isSpace label).flatMap Text.foldChar

structure Definition where
  key : List Char
  address : String
  title : String
  deriving DecidableEq, Repr

def findDefinition? (definitions : List Definition) (label : List Char) : Option Definition :=
  definitions.find? fun d => d.key == labelKey label

end DocSite.Markdown
