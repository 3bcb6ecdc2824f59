import DocSite.Config.Document
import DocSite.FileTree.Access

namespace DocSite.Config

def fileName : Path := ⟨"apidoc.toml"⟩

def upward (loc : Location) : List Location :=
  (List.range (loc.length + 1)).map fun n => loc.take (loc.length - n)

def discover? (t : FileTree) : Option Path :=
  ((upward t.current).map fun loc => (FileTree.pathOf loc).join fileName).find? t.hasPath

def ofFile (t : FileTree) (env : Environment) (path : Path) : Except ConfigError Config :=
  match t.readText path with
  | .error cause => .error (.unreadable cause)
  | .ok text => do
    let c ← ofToml env text (path.parent.getD ⟨"."⟩)
    .ok { c with file := some path }

def source? (t : FileTree) (path : Option Path) : Option Path := path.or (discover? t)

/-- The configuration of a named file, or of the nearest one if none is named. A choice made for
the progress bar wins over the configured one. -/
def load (t : FileTree) (env : Environment) (path : Option Path) (bar : Option Bool) :
    Except ConfigError Config := do
  let c ← match path with
    | some path => if t.hasPath path then ofFile t env path else .error (.notFound path)
    | none =>
      match discover? t with
      | some path => ofFile t env path
      | none => .ok (standard t.currentPath)
  .ok { c with progressBar := bar.getD c.progressBar }

end DocSite.Config
