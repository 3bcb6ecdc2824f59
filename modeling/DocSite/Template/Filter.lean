import DocSite.Template.Args
import DocSite.Template.Escape
import DocSite.Template.Token
import DocSite.Text.Case
import DocSite.Text.Class

namespace DocSite.Template

abbrev Filter := Escape → Datum → Args → Except TemplateFault Datum

namespace Filter

def onText (f : String → String) : Filter := fun _ d args => do
  args.refused
  return .text (f d.display)

def onDatum (f : Datum → Except TemplateFault Datum) : Filter := fun _ d args => do
  args.refused
  f d

/-- A text whose words start with a capital letter and go on with small ones. -/
def titleChars : Bool → List Char → List Char
  | _, [] => []
  | start, c :: s =>
    if Text.isAsciiPunctuation c || Text.isBlank c then c :: titleChars true s
    else (if start then Text.upperChar c else Text.lowerChar c) ++ titleChars false s

def replace : Filter := fun _ d args => do
  let old ← args.required 0
  let new ← args.required 1
  args.atMost 2 []
  return .text (String.ofList
    (Text.replaceWord old.display.toList new.display.toList d.display.toList))

/-- A text without white space, or without some characters, at its ends. -/
def trim : Filter := fun _ d args => do
  args.atMost 1 []
  match args.text? 0 with
  | none => return .text (Text.trim d.display)
  | some chars =>
    return .text (String.ofList (Text.trimWhile chars.toList.contains d.display.toList))

/-- The parts of a text between occurrences of a separator that is not empty; at most `n` cuts. -/
def splitWord (sep : List Char) : Nat → List Char → List (List Char)
  | 0, s => [s]
  | n + 1, s =>
    match Text.splitAt? sep s with
    | some (a, b) => a :: splitWord sep n b
    | none => [s]

/-- The parts of a text between blanks; at most `n` cuts. -/
def splitBlank : Nat → List Char → List (List Char)
  | 0, s => [s]
  | n + 1, s =>
    match Text.splitFirst Text.isBlank s with
    | some (a, b) => a :: splitBlank n b
    | none => [s]

/-- The parts of a text between empty texts: each character for itself, and nothing at the ends;
at most `n` cuts. -/
def splitEmpty (n : Nat) (s : List Char) : List (List Char) :=
  if n = 0 then [s]
  else if s.length + 1 ≤ n then [] :: s.map (fun c => [c]) ++ [[]]
  else [] :: (s.take (n - 1)).map (fun c => [c]) ++ [s.drop (n - 1)]

def split : Filter := fun _ d args => do
  args.atMost 2 []
  let s := d.display.toList
  let limit := match args.arg? 1 with
    | some (.int n) => if n < 0 then none else some n.toNat
    | _ => none
  let cuts := limit.getD (s.length + 1)
  let parts := match args.text? 0, limit with
    | none, none => (splitBlank cuts s).filter fun (part : List Char) => !part.isEmpty
    | none, some _ => splitBlank cuts s
    | some "", _ => splitEmpty cuts s
    | some sep, _ => splitWord sep.toList cuts s
  return .list (parts.map fun p => .text (String.ofList p))

def linesOf (s : List Char) : List (List Char) :=
  let lines := Text.splitAll '\n' s
  let lines := if lines.getLast? == some [] then lines.dropLast else lines
  lines.map fun l => if l.getLast? == some '\r' then l.dropLast else l

/-- The texts of items with a separator between them; none precedes the first text that is not
empty. -/
def join : Filter := fun _ d args => do
  args.atMost 1 []
  let sep := (args.text? 0).getD ""
  let items ← d.items
  return .text (items.foldl (fun s item =>
    if s = "" then item.display else s ++ sep ++ item.display) "")

def indent : Filter := fun _ d args => do
  let width ← args.required 0
  args.atMost 3 []
  let flag (i : Nat) : Bool := ((args.arg? i).map Datum.truth).getD false
  let blanks := String.ofList (List.replicate (width.asInt?.getD 0).toNat ' ')
  let text := d.display.toList
  let text := if text.getLast? == some '\n' then text.dropLast else text
  let line (first : Bool) (l : List Char) : String :=
    if (if first then flag 1 else flag 2 || !l.isEmpty) then blanks ++ String.ofList l
    else String.ofList l
  match linesOf text with
  | [] => return .text ""
  | l :: lines => return .text ("\n".intercalate (line true l :: lines.map (line false)))

/-- The text of a value as it stands in the notation of the page, or in HTML if the page has none.
It is safe. -/
def escape : Filter := fun mode d args => do
  args.refused
  return .str ((if mode = .plain then .html else mode : Escape).write d) true

def scriptChar : Char → List Char
  | '<' => "\\u003c".toList
  | '>' => "\\u003e".toList
  | '&' => "\\u0026".toList
  | '\'' => "\\u0027".toList
  | c => [c]

def toJson : Filter := fun _ d args => do
  args.atMost 1 ["indent"]
  return .str (String.ofList ((Json.write d.toValue).toList.flatMap scriptChar)) true

def pair (e : String × Datum) : Datum := .list [.text e.1, e.2]

def entries : Datum → Except TemplateFault (List (String × Datum))
  | .dict entries => .ok entries
  | _ => .error .invalidOperation

/-- A value by which to sort: capital letters count as small ones unless asked for. -/
def sortKey (caseSensitive : Bool) : Datum → Datum
  | .str s safe => if caseSensitive then .str s safe else .text (Text.toLower s)
  | d => d

/-- The items in ascending or descending order of a key; equal ones keep their order. -/
def sortBy {α : Type} (key : α → Datum) (descending : Bool) (items : List α) : List α :=
  let le (a b : α) : Bool :=
    if descending then ((key b).compare (key a)).isLE else ((key a).compare (key b)).isLE
  items.mergeSort le

def path (d : Datum) (names : String) : Except TemplateFault Datum :=
  (Text.splitAll '.' names.toList).foldlM (fun d name =>
    match (String.ofList name).toNat? with
    | some n => d.item (.int n)
    | none => d.field (String.ofList name)) d

def aspect (args : Args) (d : Datum) : Except TemplateFault Datum :=
  match args.named? "attribute" with
  | some name => path d name.display
  | none => .ok d

def keyed (args : Args) (items : List Datum) : Except TemplateFault (List (Datum × Datum)) :=
  items.mapM fun item => do
    let key ← aspect args item
    return (sortKey (args.flag "case_sensitive") key, item)

def sort : Filter := fun _ d args => do
  args.atMost 0 ["attribute", "case_sensitive", "reverse"]
  let items ← keyed args (← d.items)
  return .list ((sortBy (·.1) (args.flag "reverse") items).map (·.2))

def dictSort : Filter := fun _ d args => do
  args.atMost 0 ["by", "case_sensitive", "reverse"]
  let entries ← entries d
  let key := sortKey (args.flag "case_sensitive")
  let sorted ← match args.named? "by" with
    | none | some (.str "key" _) =>
      pure (sortBy (fun e => key (.text e.1)) (args.flag "reverse") entries)
    | some (.str "value" _) => pure (sortBy (fun e => key e.2) (args.flag "reverse") entries)
    | some _ => throw .invalidOperation
  return .list (sorted.map pair)

def unique : Filter := fun _ d args => do
  args.atMost 0 ["attribute", "case_sensitive"]
  let items ← keyed args (← d.items)
  return .list ((items.foldl (fun done item =>
    if done.any fun e => e.1.same item.1 then done else done ++ [item]) []).map (·.2))

def reverse : Datum → Except TemplateFault Datum
  | .str s _ => .ok (.text (String.ofList s.toList.reverse))
  | .undefined => .ok .undefined
  | .null => .ok .null
  | d => do return .list (← d.items).reverse

/-- The items of a value that has some; an absent one has none to take from. -/
def givenItems (d : Datum) : Except TemplateFault (List Datum) :=
  if d.isAbsent then .error .invalidOperation else d.items

def extreme (better : Ordering) (d : Datum) : Except TemplateFault Datum := do
  match ← d.items with
  | [] => return .undefined
  | first :: rest =>
    return rest.foldl (fun best item => if item.compare best == better then item else best) first

def round : Filter := fun _ d args => do
  match ← args.single?, d with
  | _, .int n => return .int n
  | p, .float x =>
    let scale := Float.pow 10 (Datum.floatOfInt ((p.bind Datum.asInt?).getD 0))
    return .float ((scale * x).round / scale)
  | _, _ => throw .invalidOperation

def truncate (x : Float) : Datum :=
  if x.isNaN || x.isInf then .int 0
  else .int (if x < 0 then -(x.abs.toUInt64.toNat : Int) else (x.toUInt64.toNat : Int))

def numberOf? (s : String) : Option Datum :=
  let (negative, chars) := Toml.splitSign s.toList
  if chars.isEmpty || chars.contains '_' || !(Token.numberChars .whole chars).2.isEmpty then none
  else if chars.all Char.isDigit then
    let n : Int := Toml.inBase 10 chars
    some (.int (if negative then -n else n))
  else match Token.ofFraction chars with
    | .float x => some (.float (if negative then -x else x))
    | _ => none

def abs : Datum → Except TemplateFault Datum
  | .int n => .ok (.int n.natAbs)
  | .float x => .ok (.float x.abs)
  | _ => .error .invalidOperation

def toInt : Datum → Except TemplateFault Datum
  | .undefined | .null => .ok (.int 0)
  | .bool b => .ok (.int (if b then 1 else 0))
  | .int n => .ok (.int n)
  | .float x => .ok (truncate x)
  | .str s _ =>
    match numberOf? s with
    | some (.int n) => .ok (.int n)
    | some (.float x) => .ok (truncate x)
    | _ => .error .invalidOperation
  | _ => .error .invalidOperation

def toFloat : Datum → Except TemplateFault Datum
  | .undefined | .null => .ok (.float 0)
  | .str s _ =>
    match (numberOf? s).bind Datum.asFloat? with
    | some x => .ok (.float x)
    | none => .error .invalidOperation
  | d =>
    match d.asFloat? with
    | some x => .ok (.float x)
    | none => .error .invalidOperation

/-- A value, or another one in its place if it is not there or, if asked for, if it counts as
false. -/
def orElse : Filter := fun _ d args => do
  args.atMost 2 []
  let lax := ((args.arg? 1).map Datum.truth).getD false
  return if d.isUndefined || (lax && !d.truth) then (args.arg? 0).getD (.text "") else d

def ofName? : String → Option Filter
  | "safe" => some (fun _ d args => do
      args.refused
      return .str d.display true)
  | "escape" | "e" => some escape
  | "tojson" => some toJson
  | "lower" => some (onText Text.toLower)
  | "upper" => some (onText Text.toUpper)
  | "capitalize" => some (onText Text.capitalize)
  | "title" => some (onText fun s => String.ofList (titleChars true s.toList))
  | "replace" => some replace
  | "trim" => some trim
  | "split" => some split
  | "lines" => some (onDatum fun d =>
      .ok (.list ((linesOf d.display.toList).map fun l => .text (String.ofList l))))
  | "indent" => some indent
  | "join" => some join
  | "length" | "count" => some (onDatum fun d => do return .int (← d.size))
  | "items" => some (onDatum fun d => do return .list ((← entries d).map pair))
  | "dictsort" => some dictSort
  | "sort" => some sort
  | "unique" => some unique
  | "reverse" => some (onDatum reverse)
  | "list" => some (onDatum fun d => do return .list (← d.items))
  | "first" => some (onDatum fun d => do return (← givenItems d).head?.getD .undefined)
  | "last" => some (onDatum fun d => do return (← givenItems d).getLast?.getD .undefined)
  | "min" => some (onDatum (extreme .lt))
  | "max" => some (onDatum (extreme .gt))
  | "sum" => some (onDatum fun d => do (← d.items).foldlM Datum.add (.int 0))
  | "round" => some round
  | "abs" => some (onDatum abs)
  | "int" => some (onDatum toInt)
  | "float" => some (onDatum toFloat)
  | "bool" => some (onDatum fun d => .ok (.bool d.truth))
  | "string" => some (onDatum fun d => .ok <| match d with
      | .str s safe => .str s safe
      | d => .text d.display)
  | "attr" => some (fun _ d args => do d.item (← args.single))
  | "default" | "d" => some orElse
  | _ => none

end Filter
end DocSite.Template
