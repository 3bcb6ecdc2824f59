import DocSite.Json.Node

namespace DocSite.Json.Node

def text? : Node → Option String
  | .str text => text
  | _ => none

def bool? : Node → Option Bool
  | .bool b => some b
  | _ => none

def wordBound : Nat := 4294967296

def word? : Node → Option Nat
  | .number lexeme =>
    if lexeme.all Char.isDigit then
      let n := lexeme.foldl (fun n c => n * 10 + (c.toNat - 48)) 0
      if n < wordBound then some n else none
    else none
  | _ => none

def list? {α : Type} (read : Node → Option α) : Node → Option (List α)
  | .list items => items.mapM read
  | _ => none

/-- An object whose values are all read by `read`, as entries in the order of the document. -/
def entries? {α : Type} (read : Node → Option α) : Node → Option (List (String × α))
  | .object fields => fields.mapM fun (name, value) => do some (← name, ← read value)
  | _ => none

def orNull? {α : Type} (read : Node → Option α) : Node → Option (Option α)
  | .null => some none
  | node => (read node).map some

def valuesOf (name : String) (fields : List (String × Node)) : List Node :=
  fields.filterMap fun (n, value) => if n = name then some value else none

/-- The fields of a record by position; absent fields are `none`. A record is written as an object,
whose unknown fields are ignored and whose known fields may not repeat, or as a list of its fields
in order. -/
def record? (names : List String) : Node → Option (List (Option Node))
  | .object fields => do
    let fields ← fields.mapM fun (name, value) => do some (← name, value)
    names.mapM fun name =>
      match valuesOf name fields with
      | [] => some none
      | [value] => some (some value)
      | _ => none
  | .list items =>
    if items.length ≤ names.length then
      some (items.map some ++ List.replicate (names.length - items.length) none)
    else none
  | _ => none

def required? {α : Type} (read : Node → Option α) (field : Option Node) : Option α :=
  field.bind read

def optional? {α : Type} (read : Node → Option α) (default : α) : Option Node → Option α
  | none => some default
  | some node => read node

def choice? {α : Type} (named : String → Option α) : Node → Option α
  | .str text => text.bind named
  | .object [(name, .null)] => name.bind named
  | _ => none

end DocSite.Json.Node
