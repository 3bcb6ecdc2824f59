import DocSite.Markdown.Event
import DocSite.Text.Escape

namespace DocSite.Markdown

/-- The entity of a character that cannot stand in a text between tags. Quotation marks can. -/
def escapeBodyChar : Char → List Char
  | '&' => "&amp;".toList
  | '<' => "&lt;".toList
  | '>' => "&gt;".toList
  | c => [c]

def escapeBody (s : String) : String := String.ofList (s.toList.flatMap escapeBodyChar)

def isAddressChar (c : Char) : Bool := c.isAlphanum || "!#$%()*+,-./:;=?@_~".toList.contains c

def hexPair (b : UInt8) : List Char :=
  let digit (n : Nat) : Char := if n < 10 then Char.ofNat (48 + n) else Char.ofNat (55 + n)
  [digit (b.toNat / 16), digit (b.toNat % 16)]

/-- The form of a character in an address: most others are written by their bytes. -/
def escapeAddressChar (c : Char) : List Char :=
  if c = '&' then "&amp;".toList
  else if c = '\'' then "&#x27;".toList
  else if isAddressChar c then [c]
  else c.toString.toUTF8.toList.flatMap fun b => '%' :: hexPair b

def escapeAddress (s : String) : String := String.ofList (s.toList.flatMap escapeAddressChar)

structure Caption where
  /-- The number of parts open inside the image. -/
  depth : Nat
  title : String

/-- A writer between two events. A block starts on a line of its own. Inside an image only texts are
written, as the text that stands for the image. -/
structure Writer where
  out : String := ""
  /-- Whether the next character starts a line. -/
  fresh : Bool := true
  columns : List Alignment := []
  inHead : Bool := false
  /-- The index of the next cell in its row. -/
  cell : Nat := 0
  /-- The image being written. -/
  caption : Option Caption := none

namespace Writer

def put (w : Writer) (s : String) : Writer :=
  if s = "" then w else { w with out := w.out ++ s, fresh := s.toList.getLast? == some '\n' }

def putFresh (w : Writer) (s : String) : Writer := w.put (if w.fresh then s else "\n" ++ s)

def putTitle (w : Writer) (title : String) : Writer :=
  if title = "" then w else (w.put "\" title=\"").put (Text.escapeHtml title)

def cellStyle : Option Alignment → String
  | some .left => " style=\"text-align: left\">"
  | some .center => " style=\"text-align: center\">"
  | some .right => " style=\"text-align: right\">"
  | _ => ">"

def startTag (w : Writer) : Tag → Writer
  | .paragraph => w.putFresh "<p>"
  | .heading level => w.putFresh s!"<h{level}>"
  | .quote => w.putFresh "<blockquote>\n"
  | .codeBlock => w.putFresh "<pre><code>"
  | .htmlBlock => w
  | .list none => w.putFresh "<ul>\n"
  | .list (some 1) => w.putFresh "<ol>\n"
  | .list (some start) => w.putFresh s!"<ol start=\"{start}\">\n"
  | .item => w.putFresh "<li>"
  | .table columns => { w with columns }.put "<table>"
  | .tableHead => { w with inHead := true, cell := 0 }.put "<thead><tr>"
  | .tableRow => { w with cell := 0 }.put "<tr>"
  | .tableCell => (w.put (if w.inHead then "<th" else "<td")).put (cellStyle w.columns[w.cell]?)
  | .emphasis => w.put "<em>"
  | .strong => w.put "<strong>"
  | .strikethrough => w.put "<del>"
  | .link toMail address title =>
    let w := (w.put (if toMail then "<a href=\"mailto:" else "<a href=\"")).put
      (escapeAddress address)
    (w.putTitle title).put "\">"
  | .image address title =>
    { ((w.put "<img src=\"").put (escapeAddress address)).put "\" alt=\"" with
      caption := some ⟨0, title⟩ }

def stopTag (w : Writer) : Tag → Writer
  | .paragraph => w.put "</p>\n"
  | .heading level => w.put s!"</h{level}>\n"
  | .quote => w.put "</blockquote>\n"
  | .codeBlock => w.put "</code></pre>\n"
  | .htmlBlock => w
  | .list none => w.put "</ul>\n"
  | .list (some _) => w.put "</ol>\n"
  | .item => w.put "</li>\n"
  | .table _ => w.put "</tbody></table>\n"
  | .tableHead => { w.put "</tr></thead><tbody>\n" with inHead := false }
  | .tableRow => w.put "</tr>\n"
  | .tableCell => { w.put (if w.inHead then "</th>" else "</td>") with cell := w.cell + 1 }
  | .emphasis => w.put "</em>"
  | .strong => w.put "</strong>"
  | .strikethrough => w.put "</del>"
  | .link .. => w.put "</a>"
  | .image .. => w

def event (w : Writer) : Event → Writer
  | .start tag => w.startTag tag
  | .stop tag => w.stopTag tag
  | .text s =>
    { w with out := w.out ++ escapeBody s, fresh := s.toList.getLast? == some '\n' }
  | .code s => ((w.put "<code>").put (escapeBody s)).put "</code>"
  | .html s | .inlineHtml s => w.put s
  | .softBreak => w.put "\n"
  | .hardBreak => w.put "<br />\n"
  | .rule => w.putFresh "<hr />\n"

/-- Writes an event inside an image. The end of the image completes its tag. -/
def captionEvent (w : Writer) (c : Caption) : Event → Writer
  | .start _ => { w with caption := some { c with depth := c.depth + 1 } }
  | .stop _ =>
    match c.depth with
    | 0 => ({ w with caption := none }.putTitle c.title).put "\" />"
    | depth + 1 => { w with caption := some { c with depth } }
  | .html _ => w
  | .text s | .code s | .inlineHtml s =>
    { w with out := w.out ++ Text.escapeHtml s, fresh := s.toList.getLast? == some '\n' }
  | .softBreak | .hardBreak | .rule => w.put " "

def step (w : Writer) (e : Event) : Writer :=
  match w.caption with
  | some c => w.captionEvent c e
  | none => w.event e

end Writer

def renderHtml (events : List Event) : String := (events.foldl Writer.step {}).out

end DocSite.Markdown
