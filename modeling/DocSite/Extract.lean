import DocSite.Decl
import DocSite.Json.Record

namespace DocSite.Extract

open Json (Node)
open Json.Node

/-- Annotation values by name; of a repeated name the last counts. -/
def annotations? (node : Node) : Option Annotations :=
  (entries? (list? text?) node).map Dict.ofList

def member? (node : Node) : Option Member := do
  match ← record? ["name", "kind", "line", "summary", "description", "annotations"] node with
  | [name, kind, line, summary, description, annotations] =>
    some {
      name := ← required? text? name
      kind := ← required? (choice? MemberKind.ofWord?) kind
      line := ← optional? (orNull? word?) none line
      summary := ← optional? text? "" summary
      description := ← optional? text? "" description
      annotations := ← optional? annotations? [] annotations }
  | _ => none

structure Record where
  /-- The full name, with or without leading separators. -/
  name : String
  /-- The namespace, if it is not to be read off the name. -/
  ns : Option String := none
  package : String := ""
  isInterface : Bool := false
  isException : Bool := false
  parent : Option String := none
  interfaces : List String := []
  userDefined : Option Bool := none
  file : Option String := none
  line : Option Nat := none
  summary : String := ""
  description : String := ""
  annotations : Annotations := []
  members : List Member := []
  deriving DecidableEq, Repr

namespace Record

def fields : List String := ["name", "namespace", "package", "is_interface", "is_exception",
  "parent", "interfaces", "user_defined", "file", "line", "summary", "description",
  "annotations", "members"]

def read? (node : Node) : Option Record := do
  match ← record? fields node with
  | [name, ns, package, isInterface, isException, parent, interfaces, userDefined, file, line,
      summary, description, annotations, members] =>
    some {
      name := ← required? text? name
      ns := ← optional? (orNull? text?) none ns
      package := ← optional? text? "" package
      isInterface := ← optional? bool? false isInterface
      isException := ← optional? bool? false isException
      parent := ← optional? (orNull? text?) none parent
      interfaces := ← optional? (list? text?) [] interfaces
      userDefined := ← optional? (orNull? bool?) none userDefined
      file := ← optional? (orNull? text?) none file
      line := ← optional? (orNull? word?) none line
      summary := ← optional? text? "" summary
      description := ← optional? text? "" description
      annotations := ← optional? annotations? [] annotations
      members := ← optional? (list? member?) [] members }
  | _ => none

/-- The type of a record. The namespace is read off the name unless it is given; a type counts as
user-defined if it has a file, unless the record says otherwise. -/
def decl (base : Path) (r : Record) : Decl :=
  let name := bareName r.name
  let file := r.file.map fun f => base.join ⟨f⟩
  { name
    shortName := (splitName name).2
    ns := (r.ns.map (Text.trimChar separator)).getD (splitName name).1
    package := r.package
    kind := TypeKind.classify r.isInterface r.isException
    parent := r.parent.map bareName
    interfaces := r.interfaces.map bareName
    file
    line := r.line
    userDefined := r.userDefined.getD file.isSome
    summary := r.summary
    description := r.description
    annotations := r.annotations
    members := r.members }

end Record

structure Document where
  root : Option String := none
  types : List Record := []
  deriving DecidableEq, Repr

namespace Document

def read? (node : Node) : Option Document := do
  match ← record? ["root", "types"] node with
  | [root, types] =>
    some {
      root := ← optional? (orNull? text?) none root
      types := ← optional? (list? Record.read?) [] types }
  | _ => none

def rootAt (base : Path) (d : Document) : Path := (d.root.map fun r => base.join ⟨r⟩).getD base

def decls (base : Path) (d : Document) : List Decl := d.types.map (Record.decl base)

end Document

/-- Reads a document: the root directory and the types in order. -/
def document? (base : Path) (node : Node) : Option (Path × List Decl) :=
  (Document.read? node).map fun d => (d.rootAt base, d.decls base)

end DocSite.Extract
