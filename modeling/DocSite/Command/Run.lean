import DocSite.Command.Bar
import DocSite.Command.Request
import DocSite.Config.Load
import DocSite.Site.Wipe
import DocSite.Template.Engine

namespace DocSite

inductive CommandError where
  | config (cause : ConfigError)
  | model (cause : ModelError)
  | site (cause : SiteError)
  /-- The output directory cannot be created. -/
  | directory (cause : FileError)
  /-- The output directory cannot be cleared of old pages. -/
  | notWiped (output : Path)

def CommandError.message : CommandError → String
  | config cause => cause.message
  | model cause => cause.message
  | site cause => cause.message
  | directory cause => cause.message
  | notWiped output => s!"Cannot wipe out target directory {output.text}"

def CommandError.line (e : CommandError) : String := s!"Error: {e.message}\n"

structure Outcome where
  tree : FileTree
  /-- What is reported on the way. -/
  report : String
  error? : Option CommandError := none

namespace Outcome

def fail (t : FileTree) (report : String) (e : CommandError) : Outcome := ⟨t, report, some e⟩

def text (o : Outcome) : String := o.report ++ (o.error?.map CommandError.line).getD ""

def exitCode (o : Outcome) : Nat := if o.error?.isSome then 1 else 0

end Outcome

namespace GenerateOptions

def modelLine (o : GenerateOptions) (m : Model) : String :=
  if m.types.isEmpty then s!"No types in {o.model.text}\n"
  else s!"Loaded {m.types.length} types from {o.model.text}\n"

def keepLine : String := "Keeping existing output, stale pages may remain\n"

def doneLine (o : GenerateOptions) (s : Stats) : String :=
  s!"Generated {s.pages} pages ({s.sources} sources, {s.resources} resources) to {o.output.text}\n"

def prepare (o : GenerateOptions) (c : Config) (t : FileTree) (x : FileTree.Refusals := {}) :
    FileTree × Bool :=
  if o.keep then (t, true) else wipe o.output c t x

def generate (o : GenerateOptions) (c : Config) (m : Model) (t : FileTree) (report : String) :
    Outcome :=
  let links := Links.ofConfig c m.root
  let workshop : Template.Workshop := ⟨c.baseDir, o.output, m, links, .plain⟩
  let site : Site := ⟨m, c, links⟩
  let (run, failure) := site.generate workshop.engine .plain o.output
    { tree := t, engine := {}, progress := .fresh c.progressBar }
  let report := report ++ Bar.drawAll run.calls
  match failure with
  | some cause => .fail run.tree report (.site cause)
  | none => ⟨run.tree, report ++ o.doneLine run.stats, none⟩

/-- Wipes the output directory unless it is to be kept, creates it and generates the site of a
model. The system may refuse the wipe something. -/
def build (o : GenerateOptions) (c : Config) (m : Model) (t : FileTree)
    (x : FileTree.Refusals := {}) : Outcome :=
  let report := o.modelLine m ++ if o.keep then keepLine else ""
  match o.prepare c t x with
  | (t, false) => .fail t report (.notWiped o.output)
  | (t, true) =>
    match t.createDirAll o.output with
    | (t, some cause) => .fail t report (.directory cause)
    | (t, none) => o.generate c m t report

def loadConfig (o : GenerateOptions) (env : Config.Environment) (t : FileTree) :
    Except ConfigError Config :=
  Config.load t env o.config (if o.hideBar then some false else none)

/-- Loads the configuration and then the model, wipes the output unless it is to be kept, and
generates the site. The first failure ends the command. -/
def run (o : GenerateOptions) (env : Config.Environment) (t : FileTree)
    (x : FileTree.Refusals := {}) : Outcome :=
  match o.loadConfig env t with
  | .error cause => .fail t "" (.config cause)
  | .ok c =>
    match Model.load t o.model with
    | .error cause => .fail t "" (.model cause)
    | .ok m => o.build c m t x

end GenerateOptions

def CleanOptions.run (o : CleanOptions) (env : Config.Environment) (t : FileTree)
    (x : FileTree.Refusals := {}) : Outcome :=
  match Config.load t env o.config none with
  | .error cause => .fail t "" (.config cause)
  | .ok c =>
    match wipe o.output c t x with
    | (t, true) => ⟨t, s!"Cleaned {o.output.text}\n", none⟩
    | (t, false) => .fail t "" (.notWiped o.output)

end DocSite
