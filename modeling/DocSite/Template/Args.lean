import DocSite.Template.Datum

namespace DocSite.Template

/-- The arguments of a call: those without a name in order, and those with a name. -/
structure Args where
  plain : List Datum := []
  named : List (String × Datum) := []
  deriving Inhabited

namespace Args

/-- Refuses more than `n` arguments without a name, and names other than `names`. -/
def atMost (args : Args) (n : Nat) (names : List String) : Except TemplateFault Unit :=
  if n < args.plain.length || args.named.any (fun a => !names.contains a.1) then
    .error .tooManyArguments
  else .ok ()

def refused (args : Args) : Except TemplateFault Unit := args.atMost 0 []

def arg? (args : Args) (i : Nat) : Option Datum := args.plain[i]?

def required (args : Args) (i : Nat) : Except TemplateFault Datum :=
  match args.arg? i with
  | some d => .ok d
  | none => .error .missingArgument

def text? (args : Args) (i : Nat) : Option String :=
  (args.arg? i).bind fun d => if d.isAbsent then none else some d.display

def single (args : Args) : Except TemplateFault Datum := do
  let d ← args.required 0
  args.atMost 1 []
  return d

def single? (args : Args) : Except TemplateFault (Option Datum) := do
  args.atMost 1 []
  return args.arg? 0

def named? (args : Args) (name : String) : Option Datum := args.named.lookup name

def flag (args : Args) (name : String) : Bool := ((args.named? name).map Datum.truth).getD false

end Args
end DocSite.Template
