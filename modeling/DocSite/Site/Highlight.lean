import DocSite.Text.Cut
import DocSite.Text.Escape

namespace DocSite

/-- Turns source text into HTML: a snippet, or the lines of a whole file. -/
structure Highlighter where
  snippet : String → String
  file : String → String

namespace Highlight

def tabWidth : Nat := 4

def widenTabs (s : String) : String :=
  String.ofList <| s.toList.flatMap fun c => if c = '\t' then List.replicate tabWidth ' ' else [c]

def plainSnippet (code : String) : String := Text.escapeHtml (widenTabs code)

def withoutReturn (line : List Char) : List Char :=
  if line.getLast? = some '\r' then line.dropLast else line

/-- The lines of a text. A line break ends a line, so that nothing follows the last one; only a
line that a line break ends loses a carriage return. -/
def linesOf (s : String) : List String :=
  let parts := Text.splitAll '\n' s.toList
  let last := parts.getLast?.getD []
  (parts.dropLast.map withoutReturn ++ if last = [] then [] else [last]).map String.ofList

def alignRight (width n : Nat) : String :=
  let digits := (toString n).toList
  String.ofList (List.replicate (width - digits.length) ' ' ++ digits)

def plainLine (width n : Nat) (line : String) : String :=
  s!"<span id=\"{n}\" class=\"line\"><a href=\"#{n}\">{alignRight width n}: </a>" ++
    plainSnippet line ++ "</span>\n"

/-- The numbered lines of a file: line `n` is found under the anchor `n`. -/
def plainFile (source : String) : String :=
  let lines := linesOf source
  let width := (toString lines.length).length
  String.join <| (lines.zipIdx 1).map fun (line, n) => plainLine width n line

end Highlight

def Highlighter.plain : Highlighter := ⟨Highlight.plainSnippet, Highlight.plainFile⟩

end DocSite
