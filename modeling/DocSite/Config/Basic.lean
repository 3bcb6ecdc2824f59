import DocSite.FileTree.Basic
import DocSite.Filenames
import DocSite.Value

namespace DocSite

structure Resource where
  source : Path
  /-- The subdirectory of the output. -/
  destination : String
  deriving DecidableEq, Repr

structure Templates where
  /-- The template of each page with a fixed name, by that name. -/
  common : Dict Path
  forNamespace : Path
  forPackage : Path
  forClass : Path
  forSource : Path

structure Config where
  /-- Draw a progress bar while generating. -/
  progressBar : Bool
  /-- Where the documentation of built-in types is found. -/
  docsUrl : String
  filenames : Filenames
  resources : List Resource
  templates : Templates
  /-- Values that every page sees. -/
  vars : Dict Value
  /-- The file that the configuration was read from. -/
  file : Option Path

inductive ConfigError where
  /-- There is no such file. -/
  | notFound (path : Path)
  /-- The file cannot be read. -/
  | unreadable (cause : FileError)
  /-- The text is not a document of the expected shape. -/
  | malformed
  /-- A pattern holds this number of placeholders instead of one. -/
  | placeholders (kind : PageKind) (count : Nat)
  /-- The destination of a resource is empty or leads out of the output. -/
  | badDestination (destination : String)
  /-- The text of a field refers to an environment variable that is not set. -/
  | unset (field name : String)
  deriving DecidableEq, Repr

def ConfigError.message : ConfigError → String
  | .notFound path => s!"Configuration file not found: {path.text}"
  | .unreadable cause => s!"I/O error: {cause.message}"
  | .malformed => "TOML parse error: the document is malformed"
  | .placeholders kind count =>
    s!"Configuration error: filenames.{kind.word} must contain exactly one %s placeholder, " ++
      s!"found {count}"
  | .badDestination destination =>
    s!"Configuration error: resources destination '{destination}' must be a relative subdirectory"
  | .unset field name =>
    "Environment variable error in " ++ field ++ ": $\x7b" ++ name ++ "\x7d not set"

namespace Config

def standardDocsUrl : String := "http://php.net/manual/"

/-- The directory that relative template names start from: that of the configuration file. -/
def baseDir (c : Config) : Path := (c.file.bind Path.parent).getD ⟨"."⟩

def checkFilenames (f : Filenames) : Except ConfigError Unit :=
  f.patterns.forM fun (kind, pattern) =>
    let count := Text.countWord placeholder pattern.toList
    if count = 1 then .ok () else .error (.placeholders kind count)

/-- Whether a destination names no proper subdirectory: it is empty, absolute or has a `..`. -/
def leavesOutput (destination : String) : Bool :=
  destination == "" || Path.isAbsolute ⟨destination⟩ ||
    (Path.components ⟨destination⟩).contains .up

def checkResources (resources : List Resource) : Except ConfigError Unit :=
  resources.forM fun r =>
    if leavesOutput r.destination then .error (.badDestination r.destination) else .ok ()

/-- Checks patterns, then destinations; the first fault is reported. -/
def validate (c : Config) : Except ConfigError Unit := do
  checkFilenames c.filenames
  checkResources c.resources

end Config
end DocSite
