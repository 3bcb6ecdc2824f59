import DocSite.FileTree.Basic

namespace DocSite.FileTree

def linkLimit : Nat := 40

/-- Follows segments from a location up to the first link that has to be followed, from where
`onward` goes on. The last name is followed through a link only if `last` holds. It may be missing;
every other name must be there. -/
def followToLink (t : FileTree) (last : Bool)
    (onward : Location → Path → List String → Except FileError Location) (loc : Location) :
    List String → Except FileError Location
  | [] => .ok loc
  | seg :: rest =>
    if !t.isDirAt loc then .error .notDirectory
    else if seg = "" ∨ seg = "." then followToLink t last onward loc rest
    else if seg = ".." then followToLink t last onward loc.dropLast rest
    else
      let child := loc ++ [seg]
      match t.entryAt child with
      | none => if rest = [] then .ok child else .error .notFound
      | some (.link target) =>
        if rest = [] ∧ !last then .ok child else onward loc target rest
      | some _ => followToLink t last onward child rest

def followFrom (t : FileTree) (last : Bool) : Nat → Location → List String →
    Except FileError Location
  | 0, loc, segs => t.followToLink last (fun _ _ _ => .error .tooManyLinks) loc segs
  | links + 1, loc, segs =>
    t.followToLink last (fun loc target rest =>
      if target.text = "" then .error .notFound
      else followFrom t last links (if target.isAbsolute then [] else loc)
        (target.segments ++ rest)) loc segs

/-- The location that a path leads to; its last name may be missing. The empty path leads
nowhere. -/
def follow (t : FileTree) (last : Bool) (p : Path) : Except FileError Location :=
  if p.text = "" then .error .notFound
  else followFrom t last linkLimit (if p.isAbsolute then [] else t.current) p.segments

def stat (t : FileTree) (p : Path) : Except FileError (Location × Entry) := do
  let loc ← t.follow true p
  match t.entryAt loc with
  | some e => .ok (loc, e)
  | none => .error .notFound

def hasPath (t : FileTree) (p : Path) : Bool := (t.stat p).toBool

def isDir (t : FileTree) (p : Path) : Bool :=
  match t.stat p with
  | .ok (_, .dir) => true
  | _ => false

def isFile (t : FileTree) (p : Path) : Bool :=
  match t.stat p with
  | .ok (_, .file _) => true
  | _ => false

def currentPath (t : FileTree) : Path := pathOf t.current

end DocSite.FileTree
