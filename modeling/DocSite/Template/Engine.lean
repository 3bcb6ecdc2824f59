import DocSite.Digest
import DocSite.DocComment
import DocSite.Site.Generate
import DocSite.Site.Label
import DocSite.Template.Run

namespace DocSite.Template

structure Workshop where
  /-- The directory that the names of templates are resolved against. -/
  root : Path
  /-- The directory that holds the static files. -/
  output : Path
  model : Model
  links : Links
  highlighter : Highlighter

structure Memory where
  /-- The templates that were read. -/
  templates : List (String × Template) := []
  /-- The addresses of the static files that were asked for. -/
  addresses : List (String × String) := []
  /-- The static files that were asked for and the addresses that were given, in order. -/
  answers : List (String × String) := []
  deriving Inhabited

namespace Workshop

def linked (link : Except MissingFilename String) : Except TemplateFault String :=
  link.mapError .noPattern

def classLink (w : Workshop) (d : Datum) : Except TemplateFault String :=
  match d with
  | .str name _ => linked (w.links.classPage name)
  | d => do
    match ← d.field "link" with
    | .str link _ => .ok link
    | _ => .error .noLink

def textOrNone (d : Datum) : String := if d.isAbsent then "" else d.display

def toHtml (f : Datum → String) : Filter := fun _ d args => do
  args.refused
  return .str (f d) true

def filter? (w : Workshop) : String → Option Filter
  | "namespace_link" => some (Filter.onDatum fun d =>
      (linked (w.links.namespacePage d.display)).map .text)
  | "package_link" => some (Filter.onDatum fun d =>
      (linked (w.links.packagePage d.display)).map .text)
  | "class_link" => some (Filter.onDatum fun d => (w.classLink d).map .text)
  | "docblock" => some (toHtml fun d => DocComment.block w.highlighter.snippet (textOrNone d))
  | "docline" => some (toHtml fun d => DocComment.line w.highlighter.snippet (textOrNone d))
  | "doclabel" => some (fun _ d args => do
      args.atMost 1 []
      let label ← linked (Label.render w.model w.links ((args.text? 0).getD "") d.display)
      return .str label true)
  | "replace_ns" => some (fun _ d args => do
      args.atMost 1 []
      return .text (shortIn ((args.text? 0).getD "") d.display))
  | "highlight" => some (toHtml fun d => w.highlighter.snippet d.display)
  | _ => none

def digestLength : Nat := 8

/-- The address of a static file: its name with the start of the digest of its content, or the
name alone if the file cannot be read. -/
def addressOf (w : Workshop) (t : FileTree) (name : String) : String :=
  match t.read (w.output.join ⟨name⟩) with
  | .ok bytes =>
    let digits := (Digest.hex (Digest.ofBytes bytes.toList)).toList.take digestLength
    name ++ "?" ++ String.ofList digits
  | .error _ => name

/-- The address of a static file that may have been asked for before; it stays the same then. -/
def staticFile (w : Workshop) (t : FileTree) (name : String) (memory : Memory) :
    String × Memory :=
  match memory.addresses.lookup name with
  | some address => (address, { memory with answers := memory.answers ++ [(name, address)] })
  | none =>
    let address := w.addressOf t name
    (address, { memory with
      addresses := (name, address) :: memory.addresses
      answers := memory.answers ++ [(name, address)] })

def callStaticFile (w : Workshop) (t : FileTree) (args : Args) (memory : Memory) :
    Except TemplateFault Datum × Memory :=
  match args.single with
  | .ok d =>
    let (address, memory) := w.staticFile t d.display memory
    (.ok (.text address), memory)
  | .error f => (.error f, memory)

def pathOf (w : Workshop) (name : String) : Path := w.root.join ⟨name⟩

def read (w : Workshop) (t : FileTree) (name : String) : Except TemplateFault Template :=
  match t.readText (w.pathOf name) with
  | .ok text => parse text
  | .error .notFound => .error .templateMissing
  | .error _ => .error (.templateUnreadable (w.pathOf name))

def load (w : Workshop) (t : FileTree) (name : String) (memory : Memory) :
    Except TemplateFault Template × Memory :=
  match memory.templates.lookup name with
  | some template => (.ok template, memory)
  | none =>
    match w.read t name with
    | .ok template =>
      (.ok template, { memory with templates := (name, template) :: memory.templates })
    | .error f => (.error f, memory)

def host (w : Workshop) (t : FileTree) : Host Memory where
  template := w.load t
  filter? := w.filter?
  function? := fun name => if name = "static_file" then some (w.callStaticFile t) else none

def stepLimit : Nat := 1000000

def renderPage (w : Workshop) (t : FileTree) (name : String) (context : Scope) (memory : Memory) :
    Except TemplateFault String × Memory :=
  match w.load t name memory with
  | (.error f, memory) => (.error f, memory)
  | (.ok template, memory) =>
    let start : Machine Memory := {
      host := memory
      base := context
      escape := .ofName name
      ownEscape := .ofName name
      blocks := template.blocks.map fun b => (b.1, ⟨[b.2], 0⟩)
      loaded := [name] }
    let (result, machine) := (Machine.runBody (w.host t) stepLimit template.body).run.run start
    (result.map fun _ => machine.out, machine.host)

def engine (w : Workshop) : Engine Memory where
  render t template context memory :=
    w.renderPage t template.text (context.toDict.map fun e => (e.1, .ofValue e.2)) memory

end Workshop
end DocSite.Template
