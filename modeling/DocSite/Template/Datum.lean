import DocSite.Json.Writer
import DocSite.Template.Fault
import DocSite.Text.NameOrder

namespace DocSite.Template

inductive Datum where
  /-- The value of what is not there. -/
  | undefined
  | null
  | bool (b : Bool)
  | int (n : Int)
  | float (x : Float)
  /-- A text; a safe one is not escaped when it is written. -/
  | str (s : String) (safe : Bool)
  | list (items : List Datum)
  /-- Entries in ascending order of their keys. -/
  | dict (entries : List (String × Datum))
  /-- The state of a loop. -/
  | loop (fields : List (String × Datum))
  /-- A macro by its number. -/
  | macroRef (number : Nat)
  /-- A function by its name. -/
  | builtin (name : String)
  deriving Inhabited

namespace Datum

def text (s : String) : Datum := .str s false

mutual

def ofValue : Value → Datum
  | .null => .null
  | .bool b => .bool b
  | .int n => .int n
  | .float x => .float x
  | .str s => .text s
  | .list items => .list (ofItems items)
  | .object fields => .dict (ofFields fields)

def ofItems : List Value → List Datum
  | [] => []
  | v :: items => ofValue v :: ofItems items

def ofFields : List (String × Value) → List (String × Datum)
  | [] => []
  | (name, v) :: fields => (name, ofValue v) :: ofFields fields

end

mutual

/-- The value that is written as JSON. What is not there is written as `null`. -/
def toValue : Datum → Value
  | .undefined | .null | .macroRef _ | .builtin _ => .null
  | .bool b => .bool b
  | .int n => .int n
  | .float x => .float x
  | .str s _ => .str s
  | .list items => .list (toValues items)
  | .dict entries | .loop entries => .object (toEntries entries)

def toValues : List Datum → List Value
  | [] => []
  | d :: items => toValue d :: toValues items

def toEntries : List (String × Datum) → List (String × Value)
  | [] => []
  | (name, d) :: entries => (name, toValue d) :: toEntries entries

end

def boolText (b : Bool) : String := if b then "True" else "False"

def floatText (x : Float) : String :=
  if x.isNaN then "NaN"
  else if x.isInf then if x < 0 then "-inf" else "inf"
  else Decimal.ofFloat Decimal.positional x

def hexDigits (n : Nat) : List Char := Nat.toDigits 16 n

def quoteChar (c : Char) : List Char :=
  match c with
  | '"' => ['\\', '"']
  | '\\' => ['\\', '\\']
  | '\n' => ['\\', 'n']
  | '\r' => ['\\', 'r']
  | '\t' => ['\\', 't']
  | '\x00' => ['\\', '0']
  | c =>
    if c.toNat < 0x20 ∨ c.toNat = 0x7f then "\\u\x7b".toList ++ hexDigits c.toNat ++ ['\x7d']
    else [c]

def quote (s : String) : String := "\"" ++ String.ofList (s.toList.flatMap quoteChar) ++ "\""

mutual

/-- A datum as part of a list or dictionary: texts stand in quotation marks. -/
def inner : Datum → String
  | .undefined => "undefined"
  | .null => "None"
  | .bool b => boolText b
  | .int n => toString n
  | .float x => floatText x
  | .str s _ => quote s
  | .list items => "[" ++ ", ".intercalate (innerItems items) ++ "]"
  | .dict entries | .loop entries =>
    "\x7b" ++ ", ".intercalate (innerEntries entries) ++ "\x7d"
  | .macroRef _ => "<macro>"
  | .builtin name => "<function " ++ name ++ ">"

def innerItems : List Datum → List String
  | [] => []
  | d :: items => inner d :: innerItems items

def innerEntries : List (String × Datum) → List String
  | [] => []
  | (name, d) :: entries => (quote name ++ ": " ++ inner d) :: innerEntries entries

end

def display : Datum → String
  | .undefined => ""
  | .str s _ => s
  | d => d.inner

def truth : Datum → Bool
  | .undefined | .null => false
  | .bool b => b
  | .int n => n != 0
  | .float x => x != 0
  | .str s _ => s != ""
  | .list items => !items.isEmpty
  | .dict entries => !entries.isEmpty
  | .loop _ | .macroRef _ | .builtin _ => true

def isUndefined : Datum → Bool
  | .undefined => true
  | _ => false

def isAbsent : Datum → Bool
  | .undefined | .null => true
  | _ => false

def isNumber : Datum → Bool
  | .int _ | .float _ => true
  | _ => false

def asText? : Datum → Option String
  | .str s _ => some s
  | _ => none

def rank : Datum → Nat
  | .undefined => 0
  | .null => 1
  | .bool _ => 2
  | .int _ | .float _ => 3
  | .str .. => 4
  | .list _ => 6
  | .dict _ => 7
  | .loop _ | .macroRef _ | .builtin _ => 9

def floatOfInt (n : Int) : Float := Float.ofInt n

inductive Numbers where
  | ints (a b : Int)
  | floats (a b : Float)

/-- A datum as a whole number; truth values are 0 and 1. -/
def asInt? : Datum → Option Int
  | .int n => some n
  | .bool b => some (if b then 1 else 0)
  | _ => none

def asFloat? : Datum → Option Float
  | .float x => some x
  | d => d.asInt?.map floatOfInt

def numbers? (a b : Datum) : Option Numbers :=
  match a, b with
  | .float x, b => b.asFloat?.map fun y => .floats x y
  | a, .float y => a.asFloat?.map fun x => .floats x y
  | a, b => do some (.ints (← a.asInt?) (← b.asInt?))

def compareFloats (x y : Float) : Ordering := if x < y then .lt else if x == y then .eq else .gt

mutual

/-- The order of data: numbers by value, texts by code points, lists and dictionaries item by
item, all else by kind. -/
def compare (a b : Datum) : Ordering :=
  match a, b with
  | .undefined, .undefined | .null, .null => .eq
  | .str s _, .str t _ => Text.compareText s t
  | .list x, .list y => compareItems x y
  | .dict x, .dict y => compareEntries x y
  | .macroRef m, .macroRef n => Ord.compare m n
  | a, b =>
    match a.numbers? b with
    | some (.ints m n) => Ord.compare m n
    | some (.floats x y) => compareFloats x y
    | none => Ord.compare a.rank b.rank

def compareItems : List Datum → List Datum → Ordering
  | [], [] => .eq
  | [], _ :: _ => .lt
  | _ :: _, [] => .gt
  | a :: x, b :: y => (compare a b).then (compareItems x y)

def compareEntries : List (String × Datum) → List (String × Datum) → Ordering
  | [], [] => .eq
  | [], _ :: _ => .lt
  | _ :: _, [] => .gt
  | (j, a) :: x, (k, b) :: y =>
    ((Text.compareText j k).then (compare a b)).then (compareEntries x y)

end

def same (a b : Datum) : Bool := compare a b == .eq

def entry? (d : Datum) (name : String) : Option Datum :=
  match d with
  | .dict entries | .loop entries => entries.lookup name
  | _ => none

/-- The part of a datum that is not there if the datum has none; a datum that is not there itself
has no parts to ask for. -/
def orUndefined (d : Datum) (part : Option Datum) : Except TemplateFault Datum :=
  match part with
  | some v => .ok v
  | none => if d.isUndefined then .error .undefinedValue else .ok .undefined

def field (d : Datum) (name : String) : Except TemplateFault Datum :=
  d.orUndefined (d.entry? name)

/-- The item of a list at an index; negative indices count from the end. -/
def nth? {α : Type} (items : List α) (n : Int) : Option α :=
  let n := if n < 0 then n + items.length else n
  if n < 0 then none else items[n.toNat]?

def item (d key : Datum) : Except TemplateFault Datum :=
  d.orUndefined <| match d, key with
    | .dict entries, .str name _ | .loop entries, .str name _ => entries.lookup name
    | .list items, .int n => nth? items n
    | .str s _, .int n => (nth? s.toList n).map fun c => .text c.toString
    | _, _ => none

/-- The items from `start` up to but not including `stop` in steps; with a negative step they come
in descending order. Negative bounds count from the end. -/
def slicedItems {α : Type} (all : List α) (start stop : Option Int) (step : Int) : List α :=
  let n : Int := all.length
  let clamp (lo hi i : Int) : Int := max lo (min hi (if i < 0 then i + n else i))
  let (first, count) :=
    if 0 < step then
      let a := clamp 0 n (start.getD 0)
      (a, (clamp 0 n (stop.getD n) - a + step - 1) / step)
    else
      let a := clamp (-1) (n - 1) (start.getD (n - 1))
      let b := (stop.map (clamp (-1) (n - 1))).getD (-1)
      (a, (a - b - step - 1) / -step)
  (List.range count.toNat).filterMap fun (k : Nat) => all[(first + k * step).toNat]?

def slice (d start stop step : Datum) : Except TemplateFault Datum := do
  let bound (b : Datum) : Except TemplateFault (Option Int) :=
    match b with
    | .undefined | .null => .ok none
    | .int n => .ok (some n)
    | _ => .error .invalidOperation
  let start ← bound start
  let stop ← bound stop
  let step := (← bound step).getD 1
  if step = 0 then throw .invalidOperation
  match d with
  | .undefined | .null => return .list []
  | .str s _ => return .text (String.ofList (slicedItems s.toList start stop step))
  | .list items => return .list (slicedItems items start stop step)
  | _ => throw .invalidOperation

def items (d : Datum) : Except TemplateFault (List Datum) :=
  match d with
  | .undefined | .null => .ok []
  | .str s _ => .ok (s.toList.map fun c => .text c.toString)
  | .list items => .ok items
  | .dict entries | .loop entries => .ok (entries.map fun e => .text e.1)
  | _ => .error .invalidOperation

def size (d : Datum) : Except TemplateFault Nat :=
  match d with
  | .str s _ => .ok s.toList.length
  | .list items => .ok items.length
  | .dict entries | .loop entries => .ok entries.length
  | _ => .error .invalidOperation

def contains (container d : Datum) : Except TemplateFault Bool :=
  match container with
  | .undefined => .ok false
  | .str s _ => .ok (Text.hasWord d.display.toList s.toList)
  | .list items => .ok (items.any d.same)
  | .dict entries | .loop entries =>
    .ok (match d with
      | .str name _ => (entries.lookup name).isSome
      | _ => false)
  | _ => .error .invalidOperation

def intBound : Nat := Nat.pow 2 127

def checkedInt (n : Int) : Except TemplateFault Datum :=
  if -(intBound : Int) ≤ n ∧ n < intBound then .ok (.int n) else .error .invalidOperation

def onNumbers (a b : Datum) (ints : Int → Int → Except TemplateFault Datum)
    (floats : Float → Float → Float) : Except TemplateFault Datum :=
  match a.numbers? b with
  | some (.ints m n) => ints m n
  | some (.floats x y) => .ok (.float (floats x y))
  | none => .error .invalidOperation

/-- The sum of numbers; texts and lists are put together. -/
def add (a b : Datum) : Except TemplateFault Datum :=
  match a, b with
  | .str s _, .str t _ => .ok (.text (s ++ t))
  | .list x, .list y => .ok (.list (x ++ y))
  | a, b => a.onNumbers b (fun m n => checkedInt (m + n)) (· + ·)

def sub (a b : Datum) : Except TemplateFault Datum :=
  a.onNumbers b (fun m n => checkedInt (m - n)) (· - ·)

def repeated (d : Datum) (n : Int) : Except TemplateFault Datum :=
  if n < 0 then .error .invalidOperation
  else match d with
    | .str s _ => .ok (.text (String.join (List.replicate n.toNat s)))
    | .list items => .ok (.list (List.replicate n.toNat items).flatten)
    | _ => .error .invalidOperation

/-- The product of numbers; a text or list is repeated. -/
def mul (a b : Datum) : Except TemplateFault Datum :=
  match a, b with
  | .str .., .int n | .list _, .int n => a.repeated n
  | .int n, .str .. | .int n, .list _ => b.repeated n
  | a, b => a.onNumbers b (fun m n => checkedInt (m * n)) (· * ·)

def div (a b : Datum) : Except TemplateFault Datum :=
  match a.asFloat?, b.asFloat? with
  | some x, some y => .ok (.float (x / y))
  | _, _ => .error .invalidOperation

def floatQuotient (x y : Float) : Float :=
  let q := x / y
  let q := if q < 0 then q.ceil else q.floor
  if x - q * y < 0 then if y > 0 then q - 1 else q + 1 else q

def quotient (a b : Datum) : Except TemplateFault Datum :=
  a.onNumbers b (fun m n => if n = 0 then .error .invalidOperation else .ok (.int (m / n)))
    floatQuotient

def remainder (a b : Datum) : Except TemplateFault Datum :=
  a.onNumbers b (fun m n => if n = 0 then .error .invalidOperation else .ok (.int (m % n)))
    fun x y =>
      let q := x / y
      x - (if q < 0 then q.ceil else q.floor) * y

def power (a b : Datum) : Except TemplateFault Datum :=
  a.onNumbers b
    (fun m n => if n < 0 ∨ (128 < n ∧ 1 < m.natAbs) then .error .invalidOperation
      else checkedInt (Int.pow m (if 128 < n then n.toNat % 2 + 2 else n.toNat)))
    Float.pow

def negate : Datum → Except TemplateFault Datum
  | .int n => checkedInt (-n)
  | .float x => .ok (.float (-x))
  | _ => .error .invalidOperation

end Datum
end DocSite.Template
