import DocSite.Config.Basic
import DocSite.FileTree.Walk
import DocSite.Mask

namespace DocSite.FileTree

abbrev Attempt := FileTree × Bool

def Attempt.andThen (a : Attempt) (next : FileTree → Attempt) : Attempt :=
  if a.2 then next a.1 else a

def attempt (t : FileTree) (result : Except FileError FileTree) : Attempt :=
  match result with
  | .ok t => (t, true)
  | .error _ => (t, false)

def attemptAll {α : Type} (t : FileTree) (step : FileTree → α → Attempt) (items : List α) :
    Attempt :=
  items.foldl (fun a item => a.andThen fun t => step t item) (t, true)

/-- What the system refuses although the tree would allow it, such as for want of permission. -/
structure Refusals where
  /-- Whether the removal of what a path names is refused. -/
  removal : FileTree → Path → Bool := fun _ _ => false
  /-- Whether the entries below a path cannot be listed. To fail at a later entry has the effect
  of a removal that is refused there. -/
  listing : FileTree → Path → Bool := fun _ _ => false

def tryRemoveFile (t : FileTree) (x : Refusals) (p : Path) : Attempt :=
  if x.removal t p then (t, false) else t.attempt (t.removeFile p)

def tryRemoveDir (t : FileTree) (x : Refusals) (p : Path) : Attempt :=
  if x.removal t p then (t, false) else t.attempt (t.removeDir p)

/-- Removes an entry found on a walk. A directory must be empty by then. -/
def removeFound (x : Refusals) (t : FileTree) (f : Found) : Attempt :=
  match f.entry with
  | .dir => t.tryRemoveDir x f.path
  | _ => t.tryRemoveFile x f.path

def removeAll (t : FileTree) (root : Path) (x : Refusals := {}) : Attempt :=
  if x.listing t root then (t, false)
  else match t.walk root with
    | .error _ => (t, false)
    | .ok found => (t.attemptAll (removeFound x) found.reverse).andThen fun t =>
        t.tryRemoveDir x root

end DocSite.FileTree

namespace DocSite.Wipe

open FileTree (Attempt Refusals)

def resource (x : Refusals) (target : Path) (t : FileTree) (r : Resource) : Attempt :=
  let dir := target.join ⟨r.destination⟩
  if t.isDir dir then t.removeAll dir x else (t, true)

def commonPage (x : Refusals) (target : Path) (t : FileTree) (name : String) : Attempt :=
  let file := target.join ⟨name⟩
  if t.isFile file then t.tryRemoveFile x file else (t, true)

def masks (c : Config) : List Mask := c.filenames.patterns.filterMap fun p => Mask.ofPattern? p.2

def isNamed (c : Config) (f : FileTree.Found) : Bool :=
  f.isFile && (masks c).any fun m => m.acceptsFile f.names

def namedPages (x : Refusals) (target : Path) (c : Config) (t : FileTree) : Attempt :=
  if x.listing t target then (t, false)
  else match t.walk target with
    | .error _ => (t, false)
    | .ok found => t.attemptAll (fun t f => t.tryRemoveFile x f.path) (found.filter (isNamed c))

def resources (x : Refusals) (target : Path) (c : Config) (t : FileTree) : Attempt :=
  t.attemptAll (resource x target) c.resources

def commonPages (x : Refusals) (target : Path) (c : Config) (t : FileTree) : Attempt :=
  t.attemptAll (commonPage x target) c.templates.common.keys

end DocSite.Wipe

namespace DocSite

/-- Removes what an earlier run generated below `target`: the copies of resources, the pages with
fixed names and every file that a pattern could have named. A missing target is wiped already. The
first removal that fails ends the wipe; what was removed before it stays removed. -/
def wipe (target : Path) (c : Config) (t : FileTree) (x : FileTree.Refusals := {}) :
    FileTree.Attempt :=
  if !t.hasPath target then (t, true)
  else ((Wipe.resources x target c t).andThen (Wipe.commonPages x target c)).andThen
    (Wipe.namedPages x target c)

end DocSite
