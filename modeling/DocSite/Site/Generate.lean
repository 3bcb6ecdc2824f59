import DocSite.FileTree.Walk
import DocSite.Site.Highlight
import DocSite.Site.Page
import DocSite.Site.Progress
import DocSite.Text.Lossy

namespace DocSite

/-- Renders a page from a template and a context. It may look at the files and keeps a state from
one page to the next. -/
structure Engine (σ : Type) where
  render : FileTree → Path → PageContext → σ → Except TemplateFault String × σ

structure Stats where
  /-- Copies of resource files. -/
  resources : Nat := 0
  common : Nat := 0
  namespaces : Nat := 0
  packages : Nat := 0
  classes : Nat := 0
  sources : Nat := 0
  deriving DecidableEq, Repr

namespace Stats

def pages (s : Stats) : Nat := s.common + s.namespaces + s.packages + s.classes + s.sources

def count (s : Stats) : PageSort → Stats
  | .common => { s with common := s.common + 1 }
  | .ofNamespace => { s with namespaces := s.namespaces + 1 }
  | .ofPackage => { s with packages := s.packages + 1 }
  | .ofClass => { s with classes := s.classes + 1 }
  | .ofSource => { s with sources := s.sources + 1 }

end Stats

structure WrittenPage where
  sort : PageSort
  /-- The path below the output directory. -/
  link : String
  /-- What its template saw. -/
  context : PageContext

structure Run (σ : Type) where
  tree : FileTree
  /-- The state of the engine. -/
  engine : σ
  progress : Progress
  /-- What the observer was told, in order. -/
  calls : List ProgressCall := []
  stats : Stats := {}
  /-- The pages written so far, in order. -/
  written : List WrittenPage := []

abbrev Advance (σ : Type) := Run σ × Option SiteError

namespace Run

variable {σ : Type}

def start (r : Run σ) (total : Nat) : Run σ :=
  let (progress, calls) := r.progress.start total
  { r with progress, calls := r.calls ++ calls }

def tick (r : Run σ) : Run σ :=
  let (progress, calls) := r.progress.increment
  { r with progress, calls := r.calls ++ calls }

def note (r : Run σ) (page : Page) (context : PageContext) : Run σ :=
  tick { r with
    stats := r.stats.count page.sort
    written := r.written ++ [⟨page.sort, page.link, context⟩] }

def finish (r : Run σ) : Run σ := { r with calls := r.calls ++ r.progress.finish }

def advance {α : Type} (step : Run σ → α → Advance σ) (r : Run σ) (items : List α) : Advance σ :=
  items.foldl (fun a item => if a.2.isNone then step a.1 item else a) (r, none)

def ensureParent (r : Run σ) (path : Path) : Advance σ :=
  match path.parent with
  | none => (r, none)
  | some parent =>
    let (tree, cause) := r.tree.createDirAll parent
    ({ r with tree }, cause.map (.file parent))

/-- Copies one entry of a resource; anything but a file is left out. -/
def copyEntry (target : Path) (r : Run σ) (f : FileTree.Found) : Advance σ :=
  if !f.isFile then (r, none)
  else
    let dest := FileTree.Found.pathBelow target f.names
    match r.ensureParent dest with
    | (r, some e) => (r, some e)
    | (r, none) =>
      match r.tree.copyFile f.path dest with
      | .error cause => (r, some (.file f.path cause))
      | .ok tree =>
        ({ r with tree, stats := { r.stats with resources := r.stats.resources + 1 } }, none)

def copyResource (output : Path) (r : Run σ) (resource : Resource) : Advance σ :=
  match r.tree.walk resource.source with
  | .error cause => (r, some (.file resource.source cause))
  | .ok found => advance (copyEntry (output.join ⟨resource.destination⟩)) r found

def fullContext (h : Highlighter) (r : Run σ) (page : Page) : Except SiteError PageContext :=
  match page.sourceFile with
  | none => .ok page.context
  | some file =>
    match r.tree.read file with
    | .error cause => .error (.file file cause)
    | .ok bytes => .ok { page.context with source := some (h.file (Text.ofBytes bytes)) }

def writePage (output : Path) (r : Run σ) (link text : String) : Advance σ :=
  let path := output.join ⟨link⟩
  match r.ensureParent path with
  | (r, some e) => (r, some e)
  | (r, none) =>
    match r.tree.write path text.toUTF8 with
    | .error cause => (r, some (.file path cause))
    | .ok tree => ({ r with tree }, none)

def renderPage (e : Engine σ) (h : Highlighter) (output : Path) (r : Run σ) :
    PlannedPage → Advance σ
  | .error cause => (r, some cause)
  | .ok page =>
    match r.fullContext h page with
    | .error cause => (r, some cause)
    | .ok context =>
      match e.render r.tree page.template context r.engine with
      | (.error cause, engine) => ({ r with engine }, some (.template page.template cause))
      | (.ok text, engine) =>
        match { r with engine }.writePage output page.link text with
        | (r, some cause) => (r, some cause)
        | (r, none) => (r.note page context, none)

end Run

/-- Generates a site into `output`, which must be there: the resources are copied, and then the
pages are written in their order. The first failure ends the run; what was written before stays. -/
def Site.generate {σ : Type} (s : Site) (e : Engine σ) (h : Highlighter) (output : Path)
    (r : Run σ) : Advance σ :=
  if !r.tree.isDir output then (r, some (.outputMissing output))
  else match Run.advance (Run.copyResource output) (r.start s.pageCount) s.config.resources with
    | (r, some cause) => (r, some cause)
    | (r, none) =>
      match Run.advance (Run.renderPage e h output) r s.pages with
      | (r, some cause) => (r, some cause)
      | (r, none) => (r.finish, none)

end DocSite
