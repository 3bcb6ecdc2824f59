import DocSite.Template.Datum
import DocSite.Text.Escape

namespace DocSite.Template

inductive Escape where
  /-- Text as it is. -/
  | plain
  /-- Text inside HTML. -/
  | html
  /-- Values in JSON. -/
  | json
  deriving DecidableEq, Repr

namespace Escape

/-- A character as it stands inside HTML; the solidus is escaped too. -/
def htmlChar (c : Char) : List Char := if c = '/' then "&#x2f;".toList else Text.escapeChar c

def htmlText (s : String) : String := String.ofList (s.toList.flatMap htmlChar)

/-- The text of a value in a notation. Safe texts stay as they are. -/
def write (mode : Escape) (d : Datum) : String :=
  match d, mode with
  | .str s true, _ => s
  | d, .plain => d.display
  | d, .html => htmlText d.display
  | d, .json => Json.write d.toValue

def nameEnding (name : String) : List Char :=
  let name := name.toList
  let name := (Text.before? ".j2".toList name).getD name
  ((Text.splitLast '.' name).map (·.2)).getD name

def ofName (name : String) : Escape :=
  match String.ofList (nameEnding name) with
  | "html" | "htm" | "xml" => .html
  | "json" | "js" | "yaml" | "yml" => .json
  | _ => .plain

def ofDatum? (own : Escape) : Datum → Option Escape
  | .str "html" _ => some .html
  | .str "json" _ => some .json
  | .str "none" _ => some .plain
  | .str .. => none
  | .bool true => some (if own = .plain then .html else own)
  | _ => some .plain

def captured (mode : Escape) (s : String) : Datum := .str s (mode != .plain)

end Escape
end DocSite.Template
