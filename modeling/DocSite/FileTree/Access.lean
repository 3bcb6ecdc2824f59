import DocSite.FileTree.Follow
import DocSite.Text.Blank

namespace DocSite.FileTree

def read (t : FileTree) (p : Path) : Except FileError ByteArray := do
  match ← t.stat p with
  | (_, .file bytes) => .ok bytes
  | _ => .error .isDirectory

def readText (t : FileTree) (p : Path) : Except FileError String := do
  match String.fromUTF8? (← t.read p) with
  | some text => .ok text
  | none => .error .invalidText

def writeAt (t : FileTree) (loc : Location) (bytes : ByteArray) : Except FileError FileTree :=
  match t.entryAt loc with
  | some .dir => .error .isDirectory
  | _ => .ok (t.put loc (.file bytes))

def endsInSeparator (p : Path) : Bool := p.text.toList.getLast? == some '/'

def withoutSeparators (p : Path) : Path :=
  ⟨String.ofList (Text.dropEndWhile (· == '/') p.text.toList)⟩

/-- Creates or replaces the file that a path leads to. A path that names a directory by its end
leads to no file, whatever stands there. -/
def write (t : FileTree) (p : Path) (bytes : ByteArray) : Except FileError FileTree := do
  if endsInSeparator p then
    let rest := withoutSeparators p
    if rest.text ≠ "" then let _ ← t.follow false rest
    .error .isDirectory
  else t.writeAt (← t.follow true p) bytes

/-- Copies a file; a copy onto itself empties it, since the target is cleared first. -/
def copyFile (t : FileTree) (source target : Path) : Except FileError FileTree := do
  let (loc, _) ← t.stat source
  let bytes ← t.read source
  let t' ← t.write target bytes
  let written ← t.follow true target
  if written = loc then .ok (t.put loc (.file .empty)) else .ok t'

/-- Creates one directory. Nothing may stand at its place, and its parent must be there. -/
def createDir (t : FileTree) (p : Path) : Except FileError FileTree := do
  let loc ← t.follow false (withoutSeparators p)
  match t.entryAt loc with
  | some _ => .error .alreadyExists
  | none => .ok (t.put loc .dir)

/-- Creates a directory and those of its parents that are missing; `n` bounds their number. The
directories created before a failure stay. -/
def createDirs (t : FileTree) (p : Path) : Nat → FileTree × Option FileError
  | 0 => (t, none)
  | n + 1 =>
    match p.parent with
    | none => (t, none)
    | some q =>
      match t.createDir p with
      | .ok t => (t, none)
      | .error .notFound =>
        match t.createDirs q n with
        | (t, some e) => (t, some e)
        | (t, none) =>
          match t.createDir p with
          | .ok t => (t, none)
          | .error e => (t, if t.isDir p then none else some e)
      | .error e => (t, if t.isDir p then none else some e)

def createDirAll (t : FileTree) (p : Path) : FileTree × Option FileError :=
  t.createDirs p (p.components.length + 1)

def removeFile (t : FileTree) (p : Path) : Except FileError FileTree := do
  let loc ← t.follow false p
  match t.entryAt loc with
  | none => .error .notFound
  | some .dir => .error .isDirectory
  | some _ => .ok (t.erase loc)

/-- Removes an empty directory. A path that ends in `.` or `..` cannot be removed, nor can a
link. -/
def removeDir (t : FileTree) (p : Path) : Except FileError FileTree := do
  let rest := withoutSeparators p
  let loc ← t.follow false rest
  match (Text.splitAll '/' rest.text.toList).getLast? with
  | some ['.'] => .error .invalidArgument
  | some ['.', '.'] => .error .notEmpty
  | _ =>
    match t.entryAt loc with
    | none => .error .notFound
    | some .dir => if (t.below loc).isEmpty then .ok (t.erase loc) else .error .notEmpty
    | some _ => .error .notDirectory

end DocSite.FileTree
