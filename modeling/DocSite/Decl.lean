import DocSite.Dict
import DocSite.Path
import DocSite.Text.Blank

namespace DocSite

def separator : Char := '\\'

def splitName (name : String) : String × String :=
  match Text.splitLast separator name.toList with
  | some (ns, short) => (String.ofList ns, String.ofList short)
  | none => ("", name)

def bareName (name : String) : String := Text.dropLeading separator name

inductive TypeKind where
  | classType
  | interfaceType
  | exceptionType
  deriving DecidableEq, Repr

namespace TypeKind

def classify (isInterface isException : Bool) : TypeKind :=
  if isException then exceptionType else if isInterface then interfaceType else classType

def word : TypeKind → String
  | classType => "class"
  | interfaceType => "interface"
  | exceptionType => "exception"

def ofWord? : String → Option TypeKind
  | "class" => some classType
  | "interface" => some interfaceType
  | "exception" => some exceptionType
  | _ => none

end TypeKind

inductive MemberKind where
  | property
  | method
  | constant
  deriving DecidableEq, Repr

namespace MemberKind

def word : MemberKind → String
  | property => "property"
  | method => "method"
  | constant => "constant"

def ofWord? : String → Option MemberKind
  | "property" => some property
  | "method" => some method
  | "constant" => some constant
  | _ => none

end MemberKind

abbrev Annotations := Dict (List String)

structure Member where
  name : String
  kind : MemberKind
  /-- The line of the declaration in the file of the type. -/
  line : Option Nat := none
  summary : String := ""
  description : String := ""
  annotations : Annotations := []
  deriving DecidableEq, Repr

structure Decl where
  /-- The full name, without leading separators. -/
  name : String
  shortName : String
  /-- Empty for the global namespace. -/
  ns : String
  /-- Empty if the type belongs to no package. -/
  package : String := ""
  kind : TypeKind
  /-- The full name of the parent, whether or not that type is known. -/
  parent : Option String := none
  interfaces : List String := []
  /-- The declaring file; built-in types have none. -/
  file : Option Path := none
  line : Option Nat := none
  userDefined : Bool := false
  summary : String := ""
  description : String := ""
  annotations : Annotations := []
  members : List Member := []
  deriving DecidableEq, Repr

namespace Decl

/-- A built-in type whose namespace and short name are read off its full name. -/
def builtin (name : String) (kind : TypeKind) : Decl :=
  let name := bareName name
  let (ns, shortName) := splitName name
  { name, shortName, ns, kind }

def inPackage (d : Decl) (package : String) : Decl := { d with package }

def extending (d : Decl) (parent : String) : Decl := { d with parent := some parent }

def implementing (d : Decl) (name : String) : Decl :=
  { d with interfaces := d.interfaces ++ [name] }

def declaredAt (d : Decl) (file : Path) (line : Nat) : Decl :=
  { d with file := some file, line := some line, userDefined := true }

def withMember (d : Decl) (m : Member) : Decl := { d with members := d.members ++ [m] }

def inNamespace (d : Decl) : Bool := d.ns != ""

def isBuiltin (d : Decl) : Bool := !d.userDefined

def membersOf (d : Decl) (kind : MemberKind) : List Member := d.members.filter (·.kind == kind)

def sourceFile? (d : Decl) : Option Path := if d.userDefined then d.file else none

end Decl
end DocSite
