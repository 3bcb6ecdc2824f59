import DocSite.Markdown.Phrase
import DocSite.Markdown.Reader

namespace DocSite.Markdown

mutual

def Inline.events : Inline → List Event
  | .text s => if s.isEmpty then [] else [.text (String.ofList s)]
  | .code s => [.code (String.ofList s)]
  | .html s => [.inlineHtml (String.ofList s)]
  | .softBreak => [.softBreak]
  | .hardBreak _ => [.hardBreak]
  | .run mark count _ _ => [.text (String.ofList (List.replicate count mark))]
  | .wrap tag children => .start tag :: (inlineEvents children ++ [.stop tag])

def inlineEvents : List Inline → List Event
  | [] => []
  | part :: parts => part.events ++ inlineEvents parts

end

def Phrase.events (definitions : List Definition) (p : Phrase) : List Event :=
  inlineEvents (p.parts definitions)

def wrapped (tag : Tag) (inner : List Event) : List Event := .start tag :: (inner ++ [.stop tag])

def HtmlLine.events (l : HtmlLine) : List Event :=
  (if l.indent = 0 then [] else [.text (String.ofList (List.replicate l.indent ' '))]) ++
    [.html l.text]

def cellEvents (definitions : List Definition) (row : List Phrase) : List Event :=
  row.flatMap fun cell => wrapped .tableCell (cell.events definitions)

mutual

def Block.events (definitions : List Definition) (tight : Bool) : Block → List Event
  | .paragraph p =>
    if tight then p.events definitions else wrapped .paragraph (p.events definitions)
  | .heading level p => wrapped (.heading level) (p.events definitions)
  | .rule => [.rule]
  | .code text => wrapped .codeBlock [.text text]
  | .html lines => wrapped .htmlBlock (lines.flatMap HtmlLine.events)
  | .quote children => wrapped .quote (blockEvents definitions false children)
  | .list start tight items => wrapped (.list start) (blockEvents definitions tight items)
  | .item children => wrapped .item (blockEvents definitions tight children)
  | .table columns head rows =>
    wrapped (.table columns) (wrapped .tableHead (cellEvents definitions head) ++
      rows.flatMap fun row => wrapped .tableRow (cellEvents definitions row))

def blockEvents (definitions : List Definition) (tight : Bool) : List Block → List Event
  | [] => []
  | b :: blocks => b.events definitions tight ++ blockEvents definitions tight blocks

end

def events (text : String) : List Event :=
  let outline := readDocument text.toList
  blockEvents outline.definitions false outline.blocks

end DocSite.Markdown
