import DocSite.Template.Filter

namespace DocSite.Template

abbrev Predicate := Datum → Args → Except TemplateFault Bool

namespace Predicate

def plain (p : Datum → Bool) : Predicate := fun d args => do
  args.refused
  return p d

def against (p : Datum → Datum → Bool) : Predicate := fun d args => do return p d (← args.single)

def remainder (d : Datum) (n : Int) : Option Int := d.asInt?.map fun m => m % n

def ofText (p : List Char → Bool) : Datum → Bool
  | .str s _ => p s.toList
  | _ => false

def isLower (c : Char) : Bool := Text.lowerChar c = [c] && Text.upperChar c != [c]

def isUpper (c : Char) : Bool := Text.upperChar c = [c] && Text.lowerChar c != [c]

def hasItems : Datum → Bool
  | .str .. | .list _ | .dict _ | .loop _ => true
  | _ => false

def divides (d e : Datum) : Bool :=
  match e.asInt? with
  | some n => n != 0 && remainder d n == some 0
  | none => false

def ofName? : String → Option Predicate
  | "defined" => some (plain fun d => !d.isUndefined)
  | "undefined" => some (plain Datum.isUndefined)
  | "none" => some (plain fun d => d.isAbsent && !d.isUndefined)
  | "true" => some (plain fun | .bool b => b | _ => false)
  | "false" => some (plain fun | .bool b => !b | _ => false)
  | "boolean" => some (plain fun | .bool _ => true | _ => false)
  | "number" => some (plain Datum.isNumber)
  | "integer" | "int" => some (plain fun | .int _ => true | _ => false)
  | "float" => some (plain fun | .float _ => true | _ => false)
  | "string" => some (plain fun | .str .. => true | _ => false)
  | "sequence" => some (plain fun | .list _ => true | _ => false)
  | "mapping" => some (plain fun | .dict _ | .loop _ => true | _ => false)
  | "iterable" => some (plain hasItems)
  | "safe" | "escaped" => some (plain fun | .str _ safe => safe | _ => false)
  | "lower" => some (plain (ofText fun s => s.all isLower))
  | "upper" => some (plain (ofText fun s => s.all isUpper))
  | "odd" => some (plain fun d => remainder d 2 == some 1)
  | "even" => some (plain fun d => remainder d 2 == some 0)
  | "divisibleby" => some (against divides)
  | "startingwith" => some (against fun d e => d.display.startsWith e.display)
  | "endingwith" => some (against fun d e => d.display.endsWith e.display)
  | "eq" | "equalto" => some (against Datum.same)
  | "ne" => some (against fun d e => !d.same e)
  | "lt" | "lessthan" => some (against fun d e => (d.compare e).isLT)
  | "le" => some (against fun d e => (d.compare e).isLE)
  | "gt" | "greaterthan" => some (against fun d e => (d.compare e).isGT)
  | "ge" => some (against fun d e => (d.compare e).isGE)
  | "in" => some (fun d args => do (← args.single).contains d)
  | _ => none

end Predicate

namespace Filter

def mapItems (filter? : String → Option Filter) : Filter := fun mode d args => do
  let items ← d.items
  match args.named? "attribute", args.plain with
  | some name, [] =>
    args.atMost 0 ["attribute", "default"]
    let part (item : Datum) : Except TemplateFault Datum :=
      match path item name.display, args.named? "default" with
      | .ok v, some other => .ok (if v.isUndefined then other else v)
      | .error _, some other => .ok other
      | v, none => v
    return .list (← items.mapM part)
  | some _, _ => throw .tooManyArguments
  | none, .str name _ :: rest =>
    match filter? name with
    | some f => return .list (← items.mapM fun item => f mode item { args with plain := rest })
    | none => throw .unknownFilter
  | none, _ => throw .invalidOperation

/-- The items that a test, or else their own truth, keeps. The test may ask about a part. -/
def keepItems (keep byPart : Bool) : Filter := fun _ d args => do
  args.atMost args.plain.length []
  let (name?, rest) ← match byPart, args.plain with
    | false, plain => pure (none, plain)
    | true, name :: plain => pure (some name.display, plain)
    | true, [] => throw .missingArgument
  let test : Datum → Except TemplateFault Bool ← match rest with
    | [] => pure fun v => .ok v.truth
    | test :: rest =>
      match Predicate.ofName? test.display with
      | some p => pure fun v => p v ⟨rest, []⟩
      | none => throw .unknownTest
  let kept ← (← d.items).filterM fun item => do
    let v ← match name? with
      | some name => path item name
      | none => pure item
    return (← test v) == keep
  return .list kept

def overItems? (filter? : String → Option Filter) : String → Option Filter
  | "map" => some (mapItems filter?)
  | "select" => some (keepItems true false)
  | "reject" => some (keepItems false false)
  | "selectattr" => some (keepItems true true)
  | "rejectattr" => some (keepItems false true)
  | _ => none

end Filter
end DocSite.Template
