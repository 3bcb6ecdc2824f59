import DocSite.Site.Index
import DocSite.Site.Links

namespace DocSite

structure TypeView where
  name : String
  shortName : String
  ns : String
  package : String
  kind : TypeKind
  link : String
  sourceLink : String
  userDefined : Bool
  line : Option Nat
  summary : String
  description : String
  parent : Option String
  interfaces : List String
  deriving DecidableEq, Repr

def TypeView.of (l : Links) (d : Decl) : Except MissingFilename TypeView := do
  .ok {
    name := d.name
    shortName := d.shortName
    ns := d.ns
    package := d.package
    kind := d.kind
    link := ← l.typePage d
    sourceLink := ← l.sourceLink d true
    userDefined := d.userDefined
    line := d.line
    summary := d.summary
    description := d.description
    parent := d.parent
    interfaces := d.interfaces }

structure MemberView where
  name : String
  kind : MemberKind
  link : String
  /-- What follows the first `#` of the link. -/
  anchor : String
  sourceLink : String
  line : Option Nat
  summary : String
  description : String
  annotations : Annotations
  deriving DecidableEq, Repr

def anchorOf (link : String) : String :=
  match Text.splitFirst (· == '#') link.toList with
  | some (_, anchor) => String.ofList anchor
  | none => ""

def MemberView.of (l : Links) (d : Decl) (m : Member) : Except MissingFilename MemberView := do
  let link ← l.memberLink d m
  .ok {
    name := m.name
    kind := m.kind
    link
    anchor := anchorOf link
    sourceLink := ← l.memberSourceLink d m
    line := m.line
    summary := m.summary
    description := m.description
    annotations := m.annotations }

structure ClassView where
  info : TypeView
  annotations : Annotations
  /-- The ancestors, the topmost first, and the type itself last. -/
  tree : List TypeView
  subclasses : List TypeView
  implementers : List TypeView
  constants : List MemberView
  properties : List MemberView
  methods : List MemberView
  deriving DecidableEq, Repr

def ClassView.of (l : Links) (d : Decl) (tree subclasses implementers : List Decl) :
    Except MissingFilename ClassView := do
  .ok {
    info := ← TypeView.of l d
    annotations := d.annotations
    tree := ← tree.mapM (TypeView.of l)
    subclasses := ← subclasses.mapM (TypeView.of l)
    implementers := ← implementers.mapM (TypeView.of l)
    constants := ← (d.membersOf .constant).mapM (MemberView.of l d)
    properties := ← (d.membersOf .property).mapM (MemberView.of l d)
    methods := ← (d.membersOf .method).mapM (MemberView.of l d) }

structure Partition where
  classes : List TypeView := []
  interfaces : List TypeView := []
  exceptions : List TypeView := []
  deriving DecidableEq, Repr

def Partition.of (l : Links) (types : List Decl) : Except MissingFilename Partition := do
  let views ← types.mapM (TypeView.of l)
  .ok {
    classes := views.filter (·.kind == .classType)
    interfaces := views.filter (·.kind == .interfaceType)
    exceptions := views.filter (·.kind == .exceptionType) }

structure PageContext where
  vars : Dict Value
  version : String
  /-- The directory that declaring files are relative to. -/
  fileRoot : String
  namespaces : List String := []
  packages : List String := []
  ns : Option String := none
  package : Option String := none
  types : Partition := {}
  cls : Option ClassView := none
  /-- The highlighted text of a source page. -/
  source : Option String := none
  /-- The path of that file relative to `fileRoot`. -/
  fileName : Option String := none

def annotationsValue (a : Annotations) : Value :=
  .object (a.map fun (name, values) => (name, .ofTexts values))

def TypeView.fields (v : TypeView) : List (String × Value) := [
  ("name", .str v.name), ("short_name", .str v.shortName), ("namespace", .str v.ns),
  ("package", .str v.package), ("kind", .str v.kind.word), ("link", .str v.link),
  ("source_link", .str v.sourceLink), ("user_defined", .bool v.userDefined),
  ("line", .ofNat? v.line), ("summary", .str v.summary), ("description", .str v.description),
  ("parent", .ofText? v.parent), ("interfaces", .ofTexts v.interfaces)]

def TypeView.toValue (v : TypeView) : Value := .ofFields v.fields

def MemberView.toValue (v : MemberView) : Value := .ofFields [
  ("name", .str v.name), ("kind", .str v.kind.word), ("link", .str v.link),
  ("anchor", .str v.anchor), ("source_link", .str v.sourceLink), ("line", .ofNat? v.line),
  ("summary", .str v.summary), ("description", .str v.description),
  ("annotations", annotationsValue v.annotations)]

/-- A class view as a value: the fields of the type stand beside those of its relatives. -/
def ClassView.toValue (v : ClassView) : Value :=
  let types (views : List TypeView) : Value := .list (views.map TypeView.toValue)
  let members (views : List MemberView) : Value := .list (views.map MemberView.toValue)
  .ofFields (v.info.fields ++ [
    ("annotations", annotationsValue v.annotations), ("tree", types v.tree),
    ("subclasses", types v.subclasses), ("implementers", types v.implementers),
    ("constants", members v.constants), ("properties", members v.properties),
    ("methods", members v.methods)])

def Partition.fields (p : Partition) : List (String × Value) :=
  let types (views : List TypeView) : Value := .list (views.map TypeView.toValue)
  [("classes", types p.classes), ("interfaces", types p.interfaces),
    ("exceptions", types p.exceptions)]

/-- A context as an object. The variables come first, so that a variable never hides a fixed
field. -/
def PageContext.toDict (c : PageContext) : Dict Value :=
  Dict.ofList (c.vars ++ [
    ("version", .str c.version), ("file_root", .str c.fileRoot),
    ("namespaces", .ofTexts c.namespaces), ("packages", .ofTexts c.packages),
    ("namespace", .ofText? c.ns), ("package", .ofText? c.package)] ++ c.types.fields ++ [
    ("class", (c.cls.map ClassView.toValue).getD .null), ("source", .ofText? c.source),
    ("file_name", .ofText? c.fileName)])

end DocSite
