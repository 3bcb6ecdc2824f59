import DocSite.Config.Expand
import DocSite.Text.Blank
import DocSite.Toml.Reader

namespace DocSite.Config

/-- The fields of a group by position; absent fields are `none`. In an array, values beyond the
known fields are ignored. -/
def group? (names : List String) : Toml → Option (List (Option Toml))
  | .table fields => some (names.map fun name => fields.lookup name)
  | .array items =>
    some ((items.take names.length).map some ++
      List.replicate (names.length - items.length) none)
  | _ => none

def text? : Toml → Option String
  | .str s => some s
  | _ => none

def bool? : Toml → Option Bool
  | .bool b => some b
  | _ => none

def texts? : Toml → Option (Dict String)
  | .table fields =>
    (fields.mapM fun (field : String × Toml) => do some (field.1, ← text? field.2)).map Dict.ofList
  | _ => none

def field? {α : Type} (read : Toml → Option α) (default : α) : Option Toml → Option α
  | none => some default
  | some v => read v

def maybe? {α : Type} (read : Toml → Option α) : Option Toml → Option (Option α)
  | none => some none
  | some v => (read v).map some

def leastInt : Int := -9223372036854775808

def greatestInt : Int := 18446744073709551615

mutual

/-- The value of a variable. Whole numbers must fit into 64 bits; numbers that are not finite have
no value; a date or time becomes an object with a mark as its only field. -/
def value? : Toml → Option Value
  | .str s => some (.str s)
  | .int n => if leastInt ≤ n ∧ n ≤ greatestInt then some (.int n) else none
  | .float x => some (if x.isFinite then .float x else .null)
  | .bool b => some (.bool b)
  | .moment text => some (.object [("$__toml_private_datetime", .str text)])
  | .array items => (values? items).map .list
  | .table fields => (fieldValues? fields).map Value.ofFields

def values? : List Toml → Option (List Value)
  | [] => some []
  | v :: items => do some ((← value? v) :: (← values? items))

def fieldValues? : List (String × Toml) → Option (List (String × Value))
  | [] => some []
  | (name, v) :: fields => do some ((name, ← value? v) :: (← fieldValues? fields))

end

def vars? : Toml → Option (Dict Value)
  | .table fields => (fieldValues? fields).map Dict.ofList
  | _ => none

structure TemplateNames where
  common : Dict String := []
  forNamespace : Option String := none
  forPackage : Option String := none
  forClass : Option String := none
  forSource : Option String := none

structure Document where
  progressBar : Bool := true
  docsUrl : String := standardDocsUrl
  resources : Dict String := []
  filenames : Filenames := .standard
  templates : TemplateNames := {}
  vars : Dict Value := []

def settings? (v : Toml) : Option (Bool × String) := do
  match ← group? ["progressbar", "external_docs_url"] v with
  | [bar, url] => some (← field? bool? true bar, ← field? text? standardDocsUrl url)
  | _ => none

/-- Reads file name patterns. The group replaces the standard patterns as a whole; as an array it
must be complete. -/
def filenames? (v : Toml) : Option Filenames := do
  match v, ← group? ["namespace", "package", "class", "source"] v with
  | .array [], _ | .array [_], _ | .array [_, _], _ | .array [_, _, _], _ => none
  | _, [ns, package, cls, source] =>
    some ⟨← maybe? text? ns, ← maybe? text? package, ← maybe? text? cls, ← maybe? text? source⟩
  | _, _ => none

def templateNames? (v : Toml) : Option TemplateNames := do
  match ← group? ["common", "namespace", "package", "class", "source"] v with
  | [common, ns, package, cls, source] =>
    some ⟨← field? texts? [] common, ← maybe? text? ns, ← maybe? text? package,
      ← maybe? text? cls, ← maybe? text? source⟩
  | _ => none

def document? (text : String) : Option Document := do
  let fields ← Toml.parse? text
  let (progressBar, docsUrl) ←
    field? settings? (true, standardDocsUrl) (fields.lookup "settings")
  some {
    progressBar
    docsUrl
    resources := ← field? texts? [] (fields.lookup "resources")
    filenames := ← field? filenames? .standard (fields.lookup "filenames")
    templates := ← field? templateNames? {} (fields.lookup "templates")
    vars := ← field? vars? [] (fields.lookup "variables") }

def Document.resolve (d : Document) (base : Path) : Config where
  progressBar := d.progressBar
  docsUrl := d.docsUrl
  filenames := d.filenames
  resources := d.resources.map fun (source, destination) =>
    ⟨base.join ⟨source⟩, Text.trimChar '/' destination⟩
  templates :=
    let named (name : Option String) (standard : String) := base.join ⟨name.getD standard⟩
    { common := d.templates.common.map fun (name, template) => (name, base.join ⟨template⟩)
      forNamespace := named d.templates.forNamespace "templates/namespace.html"
      forPackage := named d.templates.forPackage "templates/package.html"
      forClass := named d.templates.forClass "templates/class.html"
      forSource := named d.templates.forSource "templates/source.html" }
  vars := d.vars
  file := none

def Document.expand (env : Environment) (d : Document) : Except ConfigError Document := do
  let docsUrl ← expandText env "settings.external_docs_url" d.docsUrl
  let vars ← expandFields env "variables" d.vars
  .ok { d with docsUrl, vars }

def standard (base : Path) : Config := Document.resolve {} base

def ofToml (env : Environment) (text : String) (base : Path) : Except ConfigError Config := do
  match document? text with
  | none => .error .malformed
  | some d =>
    let c := (← d.expand env).resolve base
    c.validate
    .ok c

end DocSite.Config
