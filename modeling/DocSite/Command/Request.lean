import DocSite.Path
import DocSite.Text.Cut

namespace DocSite

structure GenerateOptions where
  model : Path
  output : Path
  config : Option Path
  /-- Whether what is in the output directory stays. -/
  keep : Bool
  /-- Whether the progress bar is hidden, whatever is configured. -/
  hideBar : Bool
  deriving DecidableEq, Repr

structure CleanOptions where
  output : Path
  config : Option Path
  deriving DecidableEq, Repr

inductive Request where
  | generate (o : GenerateOptions)
  | clean (o : CleanOptions)
  | help
  | version
  /-- Nothing that there is. -/
  | misuse
  deriving DecidableEq, Repr

namespace Request

structure Flag where
  long : String
  short? : Option Char := none
  takesValue : Bool := false

def modelFlag : Flag := ⟨"model", some 'm', true⟩
def outputFlag : Flag := ⟨"output", some 'o', true⟩
def configFlag : Flag := ⟨"config", some 'c', true⟩

def keepFlag : Flag := ⟨"no-wipe", none, false⟩
def hideBarFlag : Flag := ⟨"no-progressbar", none, false⟩
def verboseFlag : Flag := ⟨"verbose", some 'v', false⟩

def generateFlags : List Flag :=
  [modelFlag, outputFlag, configFlag, keepFlag, hideBarFlag, verboseFlag]

def cleanFlags : List Flag := [outputFlag, configFlag]

/-- The options that were given, by their long names, with the values that they were given. -/
abbrev Given := List (String × String)

abbrev Reading := Except Request Given

/-- Adds an option. None may be given twice, and a value has to say something. -/
def give (given : Given) (f : Flag) (value : String) : Reading :=
  if (given.lookup f.long).isSome || (f.takesValue && value == "") then .error .misuse
  else .ok ((f.long, value) :: given)

def isOption (word : String) : Bool :=
  match word.toList with
  | ['-'] => false
  | '-' :: _ => true
  | _ => false

inductive Pending where
  | nothing
  | value (f : Flag)

/-- The options in a word of short ones. An option with a value takes the rest of the word. -/
def shortWord (flags : List Flag) (given : Given) :
    List Char → Except Request (Given × Pending)
  | [] => .ok (given, .nothing)
  | c :: rest =>
    match flags.find? fun f => f.short? == some c with
    | some f =>
      if f.takesValue then
        match rest with
        | [] => .ok (given, .value f)
        | '=' :: value => do return (← give given f (String.ofList value), .nothing)
        | value => do return (← give given f (String.ofList value), .nothing)
      else do shortWord flags (← give given f "") rest
    | none => .error (if c = 'h' then .help else .misuse)

def longWord (flags : List Flag) (given : Given) (word : List Char) :
    Except Request (Given × Pending) :=
  let (name, value?) := match Text.splitFirst (· == '=') word with
    | some (name, value) => (String.ofList name, some (String.ofList value))
    | none => (String.ofList word, none)
  match flags.find? fun f => f.long == name, value? with
  | some f, some value =>
    if f.takesValue then do return (← give given f value, .nothing) else .error .misuse
  | some f, none =>
    if f.takesValue then .ok (given, .value f)
    else do return (← give given f "", .nothing)
  | none, none => .error (if name = "help" then .help else .misuse)
  | none, some _ => .error .misuse

/-- The options in the words of a command. A word that is no option is either the value of the
option before it or misplaced. -/
def options (flags : List Flag) : Pending → Given → List String → Reading
  | .nothing, given, [] => .ok given
  | .value _, _, [] => .error .misuse
  | .value f, given, word :: words =>
    if isOption word then .error .misuse
    else do options flags .nothing (← give given f word) words
  | .nothing, given, word :: words =>
    match word.toList with
    | ['-', '-'] => if words.isEmpty then .ok given else .error .misuse
    | '-' :: '-' :: long => do
      let (given, pending) ← longWord flags given long
      options flags pending given words
    | '-' :: c :: short => do
      let (given, pending) ← shortWord flags given (c :: short)
      options flags pending given words
    | _ => .error .misuse

def Given.path? (given : Given) (f : Flag) : Option Path := (given.lookup f.long).map Path.mk

def Given.has (given : Given) (f : Flag) : Bool := (given.lookup f.long).isSome

def ofReading (r : Reading) (request? : Given → Option Request) : Request :=
  match r with
  | .ok given => (request? given).getD .misuse
  | .error request => request

def ofGenerate (words : List String) : Request :=
  ofReading (options generateFlags .nothing [] words) fun given => do
    return .generate {
      model := ← Given.path? given modelFlag
      output := ← Given.path? given outputFlag
      config := Given.path? given configFlag
      keep := Given.has given keepFlag
      hideBar := Given.has given hideBarFlag }

def ofClean (words : List String) : Request :=
  ofReading (options cleanFlags .nothing [] words) fun given => do
    return .clean {
      output := ← Given.path? given outputFlag
      config := Given.path? given configFlag }

def ofWords : List String → Request
  | [] => .misuse
  | "generate" :: words => ofGenerate words
  | "clean" :: words => ofClean words
  | ["help"] | ["help", "generate"] | ["help", "clean"] | ["help", "help"] => .help
  | word :: _ =>
    match word.toList with
    | '-' :: 'h' :: _ => .help
    | '-' :: 'V' :: _ => .version
    | _ => if word = "--help" then .help else if word = "--version" then .version else .misuse

end Request
end DocSite
