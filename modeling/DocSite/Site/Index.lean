import DocSite.Decl
import DocSite.Site.FileSet

namespace DocSite

structure Group where
  name : String
  types : List Decl
  /-- The names of the groups of the other sort that have a type in common with this one. -/
  related : List String
  deriving DecidableEq, Repr

structure Index where
  /-- All types by full name. -/
  types : List Decl
  /-- Types by namespace: each group is sorted by short name and lists its packages. -/
  namespaces : List Group
  /-- Types by package: each group is sorted by full name and lists its namespaces. -/
  packages : List Group
  deriving DecidableEq, Repr

structure ParentCycle where
  name : String
  deriving DecidableEq, Repr

def ParentCycle.message (e : ParentCycle) : String :=
  s!"Cyclic inheritance detected while walking the parents of {e.name}"

namespace Index

def compareBy (key : Decl → String) (a b : Decl) : Ordering :=
  (Text.compareNames (key a) (key b)).then (Text.compareText a.name b.name)

def sortBy (key : Decl → String) (types : List Decl) : List Decl :=
  types.mergeSort fun a b => (compareBy key a b).isLE

def distinctNames (names : List String) : List String :=
  Text.dropRepeats (Text.sortNames (names.filter (· != "")))

/-- The first type of each name; `seen` holds the names already passed. -/
def firsts (seen : List String) : List Decl → List Decl
  | [] => []
  | d :: types =>
    if d.name ∈ seen then firsts seen types else d :: firsts (d.name :: seen) types

def groupBy (key other order : Decl → String) (types : List Decl) : List Group :=
  (distinctNames (types.map key)).map fun name =>
    let members := types.filter fun d => key d == name
    ⟨name, sortBy order members, distinctNames (members.map other)⟩

/-- The index of a list of types; of types with the same name the first counts. -/
def ofTypes (all : List Decl) : Index :=
  let types := sortBy Decl.name (firsts [] all)
  { types
    namespaces := groupBy Decl.ns Decl.package Decl.shortName types
    packages := groupBy Decl.package Decl.ns Decl.name types }

def find? (i : Index) (name : String) : Option Decl := i.types.find? fun d => d.name == name

def namespace? (i : Index) (name : String) : Option Group :=
  i.namespaces.find? fun g => g.name == name

def package? (i : Index) (name : String) : Option Group :=
  i.packages.find? fun g => g.name == name

def namespaceNames (i : Index) : List String := i.namespaces.map Group.name

def packageNames (i : Index) : List String := i.packages.map Group.name

def relatedNamespaces (i : Index) (ns : String) : List String :=
  i.namespaceNames.filter fun name =>
    ns.toList.isPrefixOf name.toList || name.toList.isPrefixOf ns.toList

def subclasses (i : Index) (d : Decl) : List Decl :=
  i.types.filter fun s => s.parent == some d.name

/-- The types that name `d` among their interfaces, by name; a type that names it several times is
listed as often. -/
def implementers (i : Index) (d : Decl) : List Decl :=
  i.types.flatMap fun s => List.replicate (s.interfaces.count d.name) s

def parent? (i : Index) (d : Decl) : Option Decl := d.parent.bind i.find?

/-- Extends a chain of ancestors, the topmost first, by at most `n` steps up to a type without a
known parent. -/
def climb (i : Index) : Nat → List Decl → Option (List Decl)
  | 0, _ => none
  | _ + 1, [] => some []
  | n + 1, top :: chain =>
    match i.parent? top with
    | none => some (top :: chain)
    | some p =>
      if p.name ∈ (top :: chain).map Decl.name then none else climb i n (p :: top :: chain)

/-- The chain of ancestors of a type, the topmost first and the type last. A chain has no more
types than the index and the type itself. -/
def ancestry (i : Index) (d : Decl) : Except ParentCycle (List Decl) :=
  match i.climb (i.types.length + 1) [d] with
  | some chain => .ok chain
  | none => .error ⟨d.name⟩

/-- The types with a source page, each file at its first type only; `seen` holds the files already
passed. -/
def sourcesFrom (seen : FileSet) : List Decl → List (Decl × Path)
  | [] => []
  | d :: types =>
    match d.sourceFile? with
    | none => sourcesFrom seen types
    | some file =>
      match seen.insert file with
      | (seen, true) => (d, file) :: sourcesFrom seen types
      | (seen, false) => sourcesFrom seen types

/-- The distinct declaring files of user-defined types, each with the first type declared in it. -/
def sources (i : Index) : List (Decl × Path) := sourcesFrom {} i.types

end Index
end DocSite
