
namespace DocSite.Markdown

inductive Alignment where
  | none
  | left
  | center
  | right
  deriving DecidableEq, Repr

inductive Tag where
  | paragraph
  | heading (level : Nat)
  | quote
  | codeBlock
  /-- Lines of HTML. -/
  | htmlBlock
  /-- A list; an ordered one has a number to start with. -/
  | list (start : Option Nat)
  | item
  | table (columns : List Alignment)
  | tableHead
  | tableRow
  | tableCell
  | emphasis
  | strong
  | strikethrough
  | link (toMail : Bool) (address title : String)
  | image (address title : String)
  deriving DecidableEq, Repr

inductive Event where
  | start (tag : Tag)
  | stop (tag : Tag)
  | text (s : String)
  /-- A span of code. -/
  | code (s : String)
  /-- A line of an HTML block, or HTML to be written as it is. -/
  | html (s : String)
  /-- An HTML tag inside a paragraph. -/
  | inlineHtml (s : String)
  | softBreak
  | hardBreak
  | rule
  deriving DecidableEq, Repr

end DocSite.Markdown
