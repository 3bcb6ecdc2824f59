import DocSite.FileTree.Follow

namespace DocSite.FileTree

def locate (current : Location) (p : Path) : Location :=
  p.segments.foldl (fun loc seg =>
    if seg = "" ∨ seg = "." then loc else if seg = ".." then loc.dropLast else loc ++ [seg])
    (if p.isAbsolute then [] else current)

def plant (t : FileTree) (loc : Location) (e : Entry) : FileTree :=
  let above := (List.range loc.length).map fun n => loc.take n
  let t := above.foldl (fun t dir => if t.isDirAt dir then t else t.put dir .dir) t
  t.put loc e

def gone (before after : FileTree) : List (Location × Entry) :=
  (before.entries.filter fun e => (after.entryAt e.1).isNone).reverse

def fresh (before after : FileTree) : List (Location × Entry) :=
  after.entries.filter fun e => before.entryAt e.1 != some e.2

end DocSite.FileTree
