import DocSite.Config.Basic
import DocSite.Text.Class

namespace DocSite.Config

abbrev Environment := Dict String

def isVariableChar (c : Char) : Bool := Text.isAlphanumeric c || c == '_'

def lookUp (env : Environment) (name : List Char) : Except String (List Char) :=
  match Dict.find? (String.ofList name) env with
  | some value => .ok value.toList
  | none => .error (String.ofList name)

/-- The value of a braced reference given by the text inside its braces. What follows `:-` is the
value of a variable that is not set; a reference must have a name before it. -/
def braced (env : Environment) (inside : List Char) : Except String (List Char) :=
  match Text.splitAt? [':', '-'] inside with
  | some (c :: name, default) => .ok ((lookUp env (c :: name)).toOption.getD default)
  | _ => lookUp env inside

def expandChars (env : Environment) (s : List Char) : Except String (List Char) :=
  match s with
  | [] => .ok []
  | '$' :: rest =>
    match rest with
    | [] => .ok ['$']
    | '\x7b' :: body =>
      match h : Text.splitFirst (· == '\x7d') body with
      | some (inside, after) =>
        have := Text.length_lt_of_splitFirst h
        do
          let value ← braced env inside
          .ok (value ++ (← expandChars env after))
      | none => (expandChars env body).map fun out => '$' :: '\x7b' :: out
    | '$' :: after => (expandChars env after).map ('$' :: ·)
    | c :: after =>
      have := (List.dropWhile_suffix isVariableChar (l := after)).length_le
      if isVariableChar c then do
        let value ← lookUp env (c :: after.takeWhile isVariableChar)
        .ok (value ++ (← expandChars env (after.dropWhile isVariableChar)))
      else (expandChars env (c :: after)).map ('$' :: ·)
  | c :: rest => (expandChars env rest).map (c :: ·)
termination_by s.length
decreasing_by all_goals (simp only [List.length_cons]; omega)

/-- Replaces the references of a text that holds one in braces: `$\{NAME}`, `$\{NAME:-text}` with a
text for the case that the variable is not set, and `$NAME`. A doubled dollar sign stands for one. A
text without a reference in braces is left as it is. -/
def expandText (env : Environment) (field s : String) : Except ConfigError String :=
  if Text.hasWord ['$', '\x7b'] s.toList then
    match expandChars env s.toList with
    | .ok out => .ok (String.ofList out)
    | .error name => .error (.unset field name)
  else .ok s

def references (s : List Char) : List String :=
  (Text.splitAll '$' s).tail.map fun part =>
    match part with
    | '\x7b' :: body =>
      let inside := body.takeWhile (· != '\x7d')
      String.ofList (((Text.splitAt? [':', '-'] inside).map (·.1)).getD inside)
    | part => String.ofList (part.takeWhile isVariableChar)

mutual

/-- Replaces the references of every text inside a value. A failure names the place of the text. -/
def expandValue (env : Environment) (field : String) : Value → Except ConfigError Value
  | .str s => (expandText env field s).map .str
  | .list items => (expandItems env field 0 items).map .list
  | .object fields => (expandFields env field fields).map .object
  | v => .ok v

def expandItems (env : Environment) (field : String) (i : Nat) :
    List Value → Except ConfigError (List Value)
  | [] => .ok []
  | v :: items => do
    let v ← expandValue env s!"{field}[{i}]" v
    .ok (v :: (← expandItems env field (i + 1) items))

def expandFields (env : Environment) (field : String) :
    List (String × Value) → Except ConfigError (List (String × Value))
  | [] => .ok []
  | (name, v) :: fields => do
    let v ← expandValue env s!"{field}.{name}" v
    .ok ((name, v) :: (← expandFields env field fields))

end

end DocSite.Config
