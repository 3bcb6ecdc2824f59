import DocSite.Markdown.Document
import DocSite.Markdown.Writer
import DocSite.Site.Highlight
import DocSite.Text.Blank

namespace DocSite.DocComment

open Markdown (Event Tag)

def sample (snippet : String → String) (code : String) : Event :=
  .html ("<pre><code>" ++ snippet (Text.trimChar '\n' code) ++ "</code></pre>\n")

def sampleIn? (block : String) : Option String :=
  ((Text.after? "<code>".toList (Text.trim block).toList).bind
    (Text.before? "</code>".toList)).map String.ofList

def htmlBlock (snippet : String → String) (block : String) : Event :=
  match sampleIn? block with
  | some code => sample snippet code
  | none => .text block

def isCodeTag (tag : String) : Bool :=
  let lower := tag.toList.map Char.toLower
  lower == "<code>".toList || lower == "</code>".toList

structure State where
  /-- The text of the code block that is open. -/
  code : Option String := none
  /-- The lines of the block of HTML that is open. -/
  raw : Option String := none
  /-- The events to be written, in order. -/
  out : List Event := []

namespace State

def emit (s : State) (e : Event) : State := { s with out := s.out ++ [e] }

def step (snippet : String → String) (s : State) (e : Event) : State :=
  match e with
  | .start .codeBlock => { s with code := some "" }
  | .stop .codeBlock =>
    match s.code with
    | some code => { s with code := none }.emit (sample snippet code)
    | none => s
  | .start .htmlBlock => { s with raw := some "" }
  | .stop .htmlBlock =>
    match s.raw with
    | some block => { s with raw := none }.emit (htmlBlock snippet block)
    | none => s
  | .text text =>
    match s.code with
    | some code => { s with code := some (code ++ text) }
    | none => s.emit (.text text)
  | .html line =>
    match s.raw with
    | some block => { s with raw := some (block ++ line) }
    | none => s.emit (.text line)
  | .inlineHtml tag => s.emit (if isCodeTag tag then .html tag else .text tag)
  | e => s.emit e

end State

def transform (snippet : String → String) (events : List Event) : List Event :=
  (events.foldl (State.step snippet) {}).out

def marksParagraph : Event → Bool
  | .start .paragraph | .stop .paragraph => true
  | _ => false

section Reader

/- Any reader of Markdown. -/
variable (read : String → List Event) (snippet : String → String) (comment : String)

/-- The events that are written for a comment. HTML in it is shown as text, except that `code` tags
mark samples of code; samples and blocks of code are highlighted. -/
def eventsOf : List Event := transform snippet (read (Text.trim comment))

def blockOf : String := Markdown.renderHtml (eventsOf read snippet comment)

def lineOf : String :=
  Text.trimEnd (Markdown.renderHtml ((eventsOf read snippet comment).filter (!marksParagraph ·)))

end Reader

def block (snippet : String → String) (comment : String) : String :=
  blockOf Markdown.events snippet comment

def line (snippet : String → String) (comment : String) : String :=
  lineOf Markdown.events snippet comment

end DocSite.DocComment
