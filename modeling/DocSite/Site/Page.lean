import DocSite.Config.Basic
import DocSite.Model
import DocSite.Site.View
import DocSite.Template.Fault

namespace DocSite

inductive SiteError where
  /-- The output directory is not there. -/
  | outputMissing (output : Path)
  | missingFilename (cause : MissingFilename)
  | parentCycle (cause : ParentCycle)
  /-- A page cannot be rendered from its template. -/
  | template (template : Path) (cause : TemplateFault)
  /-- A file cannot be read or written. -/
  | file (path : Path) (cause : FileError)
  deriving DecidableEq, Repr

def SiteError.message : SiteError → String
  | outputMissing output => s!"Output directory not found: {output.text}"
  | missingFilename cause => cause.message
  | parentCycle cause => cause.message
  | template path cause => s!"Failed to render {path.text}: {cause.message}"
  | file path cause => s!"I/O error at {path.text}: {cause.message}"

inductive PageSort where
  | common
  | ofNamespace
  | ofPackage
  | ofClass
  | ofSource
  deriving DecidableEq, Repr

structure Page where
  sort : PageSort
  template : Path
  context : PageContext
  /-- The path below the output directory. -/
  link : String
  /-- The file whose highlighted text is put into the context when the page is written. -/
  sourceFile : Option Path := none

abbrev PlannedPage := Except SiteError Page

structure Site where
  model : Model
  config : Config
  links : Links

namespace Site

def version : String := "0.1.0"

def index (s : Site) : Index := .ofTypes s.model.types

def baseContext (s : Site) (i : Index) : PageContext where
  vars := s.config.vars
  version := version
  fileRoot := s.model.root.text
  namespaces := i.namespaceNames
  packages := i.packageNames

def partition (s : Site) (types : List Decl) : Except SiteError Partition :=
  (Partition.of s.links types).mapError .missingFilename

/-- The pages with fixed names. All list every type. -/
def commonPages (s : Site) (i : Index) : List PlannedPage :=
  if s.config.templates.common.isEmpty then []
  else match s.partition i.types with
    | .error e => [.error e]
    | .ok types => s.config.templates.common.map fun (name, template) =>
        .ok { sort := .common, template, context := { s.baseContext i with types }, link := name }

def onlyName? : List String → Option String
  | [name] => some name
  | _ => none

/-- The page of a namespace. It lists the related namespaces, and it belongs to a package if all
its types in packages are in that one. -/
def namespacePage (s : Site) (i : Index) (g : Group) : PlannedPage := do
  let types ← s.partition g.types
  let link ← (s.links.namespacePage g.name).mapError .missingFilename
  .ok {
    sort := .ofNamespace
    template := s.config.templates.forNamespace
    context := { s.baseContext i with
      namespaces := i.relatedNamespaces g.name
      packages := g.related
      ns := some g.name
      package := onlyName? g.related
      types }
    link }

def packagePage (s : Site) (i : Index) (g : Group) : PlannedPage := do
  let types ← s.partition g.types
  let link ← (s.links.packagePage g.name).mapError .missingFilename
  .ok {
    sort := .ofPackage
    template := s.config.templates.forPackage
    context := { s.baseContext i with
      namespaces := g.related
      packages := [g.name]
      package := some g.name
      types }
    link }

def classContext (s : Site) (i : Index) (d : Decl) : Except SiteError PageContext := do
  let tree ← (i.ancestry d).mapError .parentCycle
  let cls ← (ClassView.of s.links d tree (i.subclasses d) (i.implementers d)).mapError
    .missingFilename
  let types ← s.partition [d]
  .ok { s.baseContext i with
    namespaces := if d.inNamespace then i.relatedNamespaces d.ns else []
    packages := if d.package = "" then [] else [d.package]
    ns := if d.inNamespace then some d.ns else none
    package := if d.package = "" then none else some d.package
    types
    cls := some cls }

def classPage (s : Site) (i : Index) (d : Decl) : PlannedPage := do
  let context ← s.classContext i d
  let link ← (s.links.typePage d).mapError .missingFilename
  .ok { sort := .ofClass, template := s.config.templates.forClass, context, link }

def sourcePage (s : Site) (d : Decl) (page : Page) (file : Path) : PlannedPage := do
  let link ← (s.links.sourceLink d false).mapError .missingFilename
  .ok {
    sort := .ofSource
    template := s.config.templates.forSource
    context := { page.context with fileName := some (s.model.relativePath file) }
    link
    sourceFile := some file }

def typePages (s : Site) (i : Index) (sources : List (Decl × Path)) (d : Decl) :
    List PlannedPage :=
  match s.classPage i d with
  | .error e => [.error e]
  | .ok page =>
    .ok page :: (sources.filter fun p => p.1.name == d.name).map fun p => s.sourcePage d page p.2

/-- All pages in order: those with fixed names, then one for each namespace, each package and each
type. The page of a type is followed by the source page of its file if no earlier type had it. The
first page that cannot be planned ends the run. -/
def pages (s : Site) : List PlannedPage :=
  let i := s.index
  s.commonPages i ++ i.namespaces.map (s.namespacePage i) ++ i.packages.map (s.packagePage i) ++
    i.types.flatMap (s.typePages i i.sources)

def pageCount (s : Site) : Nat :=
  let i := s.index
  s.config.templates.common.length + i.namespaces.length + i.packages.length + i.types.length +
    i.sources.length

end Site
end DocSite
