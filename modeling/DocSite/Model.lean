import DocSite.Extract
import DocSite.FileTree.Access

namespace DocSite

inductive ModelError where
  /-- There is no such file. -/
  | notFound (path : Path)
  /-- The file cannot be read. -/
  | unreadable (cause : FileError)
  /-- The document is not JSON of the expected shape. -/
  | malformed
  /-- Two types have this name. -/
  | duplicate (name : String)
  deriving DecidableEq, Repr

def ModelError.message : ModelError → String
  | .notFound path => s!"Model file not found: {path.text}"
  | .unreadable cause => s!"I/O error: {cause.message}"
  | .malformed => "Model parse error: the document is malformed"
  | .duplicate name => s!"Duplicate type in model: {name}"

/-- The declared types of a code base and the directory that their files lie under. -/
structure Model where
  root : Path
  types : List Decl
  names_nodup : (types.map Decl.name).Nodup

namespace Model

/-- The first name, in order, that occurred before; `seen` holds the names already passed. -/
def firstRepeat? (seen : List String) : List String → Option String
  | [] => none
  | name :: rest => if name ∈ seen then some name else firstRepeat? (name :: seen) rest

theorem nodup_of_firstRepeat?_eq_none {seen names : List String}
    (h : firstRepeat? seen names = none) : names.Nodup ∧ ∀ name ∈ names, name ∉ seen := by
  induction names generalizing seen with
  | nil => simp
  | cons name rest ih =>
    simp only [firstRepeat?] at h
    split at h
    · simp at h
    · rename_i hseen
      obtain ⟨hnodup, hrest⟩ := ih h
      refine ⟨List.nodup_cons.2 ⟨fun hmem => hrest name hmem (by simp), hnodup⟩, ?_⟩
      intro other hother
      rcases List.mem_cons.1 hother with rfl | hmem
      · exact hseen
      · exact fun hin => hrest other hmem (List.mem_cons_of_mem _ hin)

def ofTypes (root : Path) (types : List Decl) : Except ModelError Model :=
  match h : firstRepeat? [] (types.map Decl.name) with
  | some name => .error (.duplicate name)
  | none => .ok ⟨root, types, (nodup_of_firstRepeat?_eq_none h).1⟩

def ofJson (text : String) (base : Path) : Except ModelError Model :=
  match (Json.Node.parse? text).bind (Extract.document? base) with
  | none => .error .malformed
  | some (root, types) => ofTypes root types

/-- The model in a file. Its paths are relative to the directory of the file. -/
def load (t : FileTree) (path : Path) : Except ModelError Model :=
  if !t.hasPath path then .error (.notFound path)
  else match t.readText path with
    | .error cause => .error (.unreadable cause)
    | .ok text => ofJson text (path.parent.getD ⟨"."⟩)

/-- The type of a name. Leading separators are ignored. -/
def find? (m : Model) (name : String) : Option Decl :=
  m.types.find? fun d => d.name == bareName name

/-- A written type name without blanks at its ends and without one trailing array mark. -/
def writtenName (name : String) : String :=
  let name := Text.trim name
  match Text.before? ['[', ']'] name.toList with
  | some rest => String.ofList rest
  | none => name

/-- The type that a name means inside a namespace. A name that starts with a separator is
absolute; any other is looked up in the namespace first and then as a full name. -/
def resolve? (m : Model) (name ns : String) : Option Decl :=
  let name := writtenName name
  if name = "" then none
  else if name.toList.head? = some separator then m.find? name
  else if ns = "" then m.find? name
  else (m.find? (ns ++ separator.toString ++ name)).or (m.find? name)

def relativePath (m : Model) (file : Path) : String := m.root.relativeTo file

end Model
end DocSite
