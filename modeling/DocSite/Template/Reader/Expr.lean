import DocSite.Template.Syntax
import DocSite.Template.Token

namespace DocSite.Template

structure Source where
  tokens : List Token
  /-- The names of the blocks so far. -/
  blocks : List String := []

abbrev Parse (α : Type) := StateT Source (Except TemplateFault) α

namespace Parse

def peek : Parse (Option Token) := return (← get).tokens.head?

def skip : Parse Unit := modify fun s => { s with tokens := s.tokens.tail }

def fail {α : Type} : Parse α := do
  match ← peek with
  | some (.fault f) => throw f
  | _ => throw .malformed

def isNext (t : Token) : Parse Bool := return (← peek) == some t

def take? (t : Token) : Parse Bool := do
  let here ← isNext t
  if here then skip
  return here

def take (t : Token) : Parse Unit := do
  if !(← take? t) then fail

def takeSign (s : String) : Parse Unit := take (.sign s)

def takeWord (s : String) : Parse Unit := take (.word s)

def anyWord : Parse String := do
  match ← peek with
  | some (.word w) =>
    skip
    return w
  | _ => fail

def oneOf {α : Type} (table : List (Token × α)) : Parse (Option α) := do
  match ← peek with
  | some t =>
    match table.lookup t with
    | some a =>
      skip
      return some a
    | none => return none
  | none => return none

/-- Items with commas between them up to `close`; one more comma may stand after the last. The
items so far are in reverse. -/
def untilSign {α : Type} (close : String) (item : Parse α) : Nat → List α → Parse (List α)
  | 0, _ => fail
  | n + 1, done => do
    if ← take? (.sign close) then return done.reverse
    if !done.isEmpty then
      takeSign ","
      if ← take? (.sign close) then return done.reverse
    untilSign close item n ((← item) :: done)

def comparisons : List (Token × Operator) :=
  [(.sign "==", .eq), (.sign "!=", .ne), (.sign "<", .lt), (.sign "<=", .le), (.sign ">", .gt),
    (.sign ">=", .ge), (.word "in", .within)]

/-- The operators of arithmetic; those of a later line bind more. -/
def arithmetic : List (List (Token × Operator)) :=
  [[(.sign "+", .add), (.sign "-", .sub)],
    [(.sign "~", .concat)],
    [(.sign "*", .mul), (.sign "/", .div), (.sign "//", .quotient), (.sign "%", .remainder)],
    [(.sign "**", .power)]]

def constant? : String → Option Datum
  | "true" | "True" => some (.bool true)
  | "false" | "False" => some (.bool false)
  | "none" | "None" => some .null
  | _ => none

def connectives : List String := ["and", "or", "else", "is"]

def startsArgument : Token → Bool
  | .word w => !connectives.contains w
  | .str _ | .int _ | .float _ => true
  | .sign s => ["+", "[", "\x7b"].contains s
  | _ => false

mutual

def expr : Nat → Parse Expr
  | 0 => fail
  | n + 1 => do choiceTail n (← either n)

def choiceTail : Nat → Expr → Parse Expr
  | 0, _ => fail
  | n + 1, yes => do
    if !(← take? (.word "if")) then return yes
    let cond ← either n
    if ← take? (.word "else") then
      choiceTail n (.choice cond yes (some (← expr n)))
    else choiceTail n (.choice cond yes none)

def either : Nat → Parse Expr
  | 0 => fail
  | n + 1 => do eitherTail n (← both n)

def eitherTail : Nat → Expr → Parse Expr
  | 0, _ => fail
  | n + 1, a => do
    if ← take? (.word "or") then eitherTail n (.either a (← both n)) else return a

def both : Nat → Parse Expr
  | 0 => fail
  | n + 1 => do bothTail n (← negation n)

def bothTail : Nat → Expr → Parse Expr
  | 0, _ => fail
  | n + 1, a => do
    if ← take? (.word "and") then bothTail n (.both a (← negation n)) else return a

def negation : Nat → Parse Expr
  | 0 => fail
  | n + 1 => do
    if ← take? (.word "not") then return .not (← negation n)
    comparisonTail n (← operation n arithmetic)

def comparisonTail : Nat → Expr → Parse Expr
  | 0, _ => fail
  | n + 1, a => do
    if ← take? (.word "not") then
      takeWord "in"
      comparisonTail n (.not (.binary .within a (← operation n arithmetic)))
    else match ← oneOf comparisons with
      | some op => comparisonTail n (.binary op a (← operation n arithmetic))
      | none => return a

def operation : Nat → List (List (Token × Operator)) → Parse Expr
  | 0, _ => fail
  | n + 1, [] => operand n
  | n + 1, ops :: levels => do operationTail n ops levels (← operation n levels)

def operationTail :
    Nat → List (Token × Operator) → List (List (Token × Operator)) → Expr → Parse Expr
  | 0, _, _, _ => fail
  | n + 1, ops, levels, a => do
    match ← oneOf ops with
    | some op => operationTail n ops levels (.binary op a (← operation n levels))
    | none => return a

def operand : Nat → Parse Expr
  | 0 => fail
  | n + 1 => do filters n (← parts n (← signed n))

def signed : Nat → Parse Expr
  | 0 => fail
  | n + 1 => do
    if ← take? (.sign "-") then return .negate (← signed n)
    match ← peek with
    | some (.word w) =>
      skip
      return (constant? w).elim (.name w) .const
    | some (.str s) =>
      skip
      return .const (.text s)
    | some (.int i) =>
      skip
      return .const (.int i)
    | some (.float x) =>
      skip
      return .const (.float x)
    | some (.sign "(") =>
      skip
      bracketed n
    | some (.sign "[") =>
      skip
      return .list (← untilSign "]" (expr n) n [])
    | some (.sign "\x7b") =>
      skip
      return .dict (← untilSign "\x7d" (entry n) n [])
    | _ => fail

def bracketed : Nat → Parse Expr
  | 0 => fail
  | n + 1 => do
    if ← take? (.sign ")") then return .list []
    let first ← expr n
    if ← isNext (.sign ",") then return .list (← untilSign ")" (expr n) n [first])
    takeSign ")"
    return first

def entry : Nat → Parse (Expr × Expr)
  | 0 => fail
  | n + 1 => do
    let key ← expr n
    takeSign ":"
    return (key, ← expr n)

def parts : Nat → Expr → Parse Expr
  | 0, _ => fail
  | n + 1, e => do
    if ← take? (.sign ".") then parts n (.field e (← anyWord))
    else if ← take? (.sign "[") then parts n (← subscript n e)
    else if ← isNext (.sign "(") then parts n (.call e (← arguments n))
    else return e

def subscript : Nat → Expr → Parse Expr
  | 0, _ => fail
  | n + 1, e => do
    let start ← bound n
    if ← take? (.sign ":") then
      let stop ← bound n
      let step ← if ← take? (.sign ":") then bound n else pure none
      takeSign "]"
      return .slice e start stop step
    else
      takeSign "]"
      match start with
      | some key => return .item e key
      | none => fail

def bound : Nat → Parse (Option Expr)
  | 0 => fail
  | n + 1 => do
    if (← isNext (.sign ":")) || (← isNext (.sign "]")) then return none
    return some (← expr n)

def arguments : Nat → Parse (List Argument)
  | 0 => fail
  | n + 1 => do
    takeSign "("
    let args ← untilSign ")" (argument n) n []
    if (args.dropWhile fun a => a.1.isNone).any fun a => a.1.isNone then fail
    return args

def argument : Nat → Parse Argument
  | 0 => fail
  | n + 1 => do
    match ← expr n with
    | .name x => if ← take? (.sign "=") then return (some x, ← either n) else return (none, .name x)
    | e => return (none, e)

def givenArguments : Nat → Parse (List Argument)
  | 0 => fail
  | n + 1 => do if ← isNext (.sign "(") then arguments n else return []

def filters : Nat → Expr → Parse Expr
  | 0, _ => fail
  | n + 1, e => do
    if ← take? (.sign "|") then
      let name ← anyWord
      filters n (.filter e name (← givenArguments n))
    else if ← take? (.word "is") then
      let negated ← take? (.word "not")
      let name ← anyWord
      let args ←
        if ((← peek).map startsArgument).getD false then pure [(none, ← operand n)]
        else givenArguments n
      let tested := Expr.test e name args
      filters n (if negated then .not tested else tested)
    else return e

end

end Parse
end DocSite.Template
