import DocSite.Path
import DocSite.Text.NameOrder

namespace DocSite

/-- A place in a tree: the names from the root down, without links, `.` and `..` among them. -/
abbrev Location := List String

inductive Entry where
  | dir
  | file (bytes : ByteArray)
  | link (target : Path)

/-- Two entries are equal when they are of one kind and agree in their bytes or their targets. -/
def Entry.beq : Entry → Entry → Bool
  | .dir, .dir => true
  | .file x, .file y => x.data == y.data
  | .link x, .link y => x.text == y.text
  | _, _ => false

instance : BEq Entry := ⟨Entry.beq⟩

theorem Entry.beq_iff_eq (x y : Entry) : (x == y) = true ↔ x = y := by
  change Entry.beq x y = true ↔ x = y
  cases x <;> cases y <;> simp [Entry.beq, Path.text_inj, ByteArray.ext_iff]

instance : LawfulBEq Entry where
  eq_of_beq := (Entry.beq_iff_eq _ _).1
  rfl := (Entry.beq_iff_eq _ _).2 rfl

inductive FileError where
  | notFound
  | isDirectory
  | notDirectory
  | alreadyExists
  /-- A text was expected and the bytes are not UTF-8. -/
  | invalidText
  | notEmpty
  | invalidArgument
  | tooManyLinks
  deriving DecidableEq, Repr

def FileError.message : FileError → String
  | .notFound => "No such file or directory (os error 2)"
  | .isDirectory => "Is a directory (os error 21)"
  | .notDirectory => "Not a directory (os error 20)"
  | .alreadyExists => "File exists (os error 17)"
  | .invalidText => "stream did not contain valid UTF-8"
  | .notEmpty => "Directory not empty (os error 39)"
  | .invalidArgument => "Invalid argument (os error 22)"
  | .tooManyLinks => "Too many levels of symbolic links (os error 40)"

/-- Lexicographic order of locations: a directory comes before what is in it. -/
def compareLocations : Location → Location → Ordering
  | [], [] => .eq
  | [], _ :: _ => .lt
  | _ :: _, [] => .gt
  | a :: x, b :: y => (Text.compareText a b).then (compareLocations x y)

/-- Entries in the order in which they are listed, ascending where they were put in one by one, and
the current directory. The root is a directory and has no entry. -/
structure FileTree where
  entries : List (Location × Entry)
  current : Location

namespace FileTree

def entryAt (t : FileTree) (loc : Location) : Option Entry :=
  if loc = [] then some .dir else t.entries.lookup loc

def isDirAt (t : FileTree) (loc : Location) : Bool :=
  match t.entryAt loc with
  | some .dir => true
  | _ => false

/-- Puts an entry into an ascending list; an entry at the same location is replaced. -/
def insertEntry (loc : Location) (e : Entry) : List (Location × Entry) → List (Location × Entry)
  | [] => [(loc, e)]
  | (l, f) :: rest =>
    match compareLocations loc l with
    | .lt => (loc, e) :: (l, f) :: rest
    | .eq => (loc, e) :: rest
    | .gt => (l, f) :: insertEntry loc e rest

def put (t : FileTree) (loc : Location) (e : Entry) : FileTree :=
  { t with entries := insertEntry loc e t.entries }

def erase (t : FileTree) (loc : Location) : FileTree :=
  { t with entries := t.entries.filter fun e => e.1 != loc }

def below (t : FileTree) (loc : Location) : List (Location × Entry) :=
  t.entries.filter fun e => loc.isPrefixOf e.1 && e.1 != loc

def pathOf (loc : Location) : Path :=
  ⟨String.ofList ('/' :: Text.joinWith ['/'] (loc.map String.toList))⟩

end FileTree
end DocSite
