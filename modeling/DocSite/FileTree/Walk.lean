import DocSite.FileTree.Access

namespace DocSite.FileTree

/-- An entry found on a walk: its names below the start, its path and what it is. -/
structure Found where
  names : List String
  path : Path
  entry : Entry

def Found.pathBelow (start : Path) (names : List String) : Path :=
  names.foldl (fun p name => p.join ⟨name⟩) start

/-- The entries below the place that `start` leads to, a directory before what is in it. Below a
file there is nothing. -/
def walk (t : FileTree) (start : Path) : Except FileError (List Found) := do
  let (loc, _) ← t.stat start
  .ok <| (t.below loc).map fun (l, e) =>
    let names := l.drop loc.length
    ⟨names, Found.pathBelow start names, e⟩

def Found.isFile (f : Found) : Bool :=
  match f.entry with
  | .file _ => true
  | _ => false

end DocSite.FileTree
