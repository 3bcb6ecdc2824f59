import DocSite.Model
import DocSite.Site.Links
import DocSite.Text.Escape

namespace DocSite

/-- A name without leading separators, and without `ns` if the name lies directly inside it. -/
def shortIn (ns name : String) : String :=
  let bare := bareName name
  if ns = "" then bare
  else match Text.after? (ns.toList ++ [separator]) bare.toList with
    | some short =>
      if short.isEmpty || short.contains separator then bare else String.ofList short
    | none => bare

namespace Label

def split (doc : String) : List String × String :=
  let doc := (Text.trim doc).toList
  let (names, label) := match Text.splitFirst Text.isBlank doc with
    | some (names, label) => (names, label.dropWhile Text.isBlank)
    | none => (doc, [])
  ((Text.splitAll '|' names).map String.ofList, String.ofList label)

/-- One name: its short form, linked if the model knows the type. -/
def ofName (m : Model) (l : Links) (ns name : String) : Except MissingFilename String := do
  let shown := Text.escapeHtml (shortIn ns name)
  match m.resolve? name ns with
  | some d => .ok ("<a href=\"" ++ (← l.typePage d) ++ "\">" ++ shown ++ "</a>")
  | none => .ok shown

/-- The label of an annotation such as `Type1|Type2 label` inside a namespace: each type that the
model knows is linked, and all else is escaped. -/
def render (m : Model) (l : Links) (ns doc : String) : Except MissingFilename String := do
  let (names, label) := split doc
  let parts ← names.mapM (ofName m l ns)
  let types := "|".intercalate parts
  .ok (if label = "" then types else types ++ " " ++ Text.escapeHtml label)

end Label
end DocSite
