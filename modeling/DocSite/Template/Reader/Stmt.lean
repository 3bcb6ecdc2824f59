import DocSite.Template.Reader.Expr

namespace DocSite.Template

namespace Parse

def reservedNames : List String :=
  ["true", "True", "false", "False", "none", "None", "loop", "self"]

def freshName : Parse String := do
  let name ← anyWord
  if reservedNames.contains name then throw .malformed
  return name

def endTag : Parse Unit := take (.closing .tag)

def isWord (words : List String) : Parse Bool := do
  match ← peek with
  | some (.word w) => return words.contains w
  | _ => return false

def contextWords : Parse Unit := do
  if ← isWord ["with", "without"] then
    skip
    takeWord "context"

mutual

def target : Nat → Parse Target
  | 0 => fail
  | n + 1 => targets n []

/-- Targets with commas between them; those so far are in reverse. A single one without a comma
stands for itself. -/
def targets : Nat → List Target → Parse Target
  | 0, _ => fail
  | n + 1, done => do
    let t ← oneTarget n
    if ← take? (.sign ",") then
      let atEnd := (← isNext (.sign ")")) || (← isNext (.closing .tag)) || (← isWord ["in"])
      if atEnd then return .list (t :: done).reverse
      targets n (t :: done)
    else if done.isEmpty then return t
    else return .list (t :: done).reverse

def oneTarget : Nat → Parse Target
  | 0 => fail
  | n + 1 => do
    if ← take? (.sign "(") then
      let t ← target n
      takeSign ")"
      return t
    else return .name (← freshName)

end

/-- A target in brackets, or a name that may be followed by names of parts; whether there were
brackets. -/
def setTarget (n : Nat) : Parse (Target × Bool) := do
  if ← take? (.sign "(") then
    let t ← target n
    takeSign ")"
    return (t, true)
  else
    let name ← freshName
    return (← dotted n (.name name), false)
where
  dotted : Nat → Target → Parse Target
    | 0, _ => fail
    | n + 1, t => do
      if ← take? (.sign ".") then
        let _ ← anyWord
        dotted n .part
      else return t

def filterChain : Nat → Parse (List FilterCall)
  | 0 => fail
  | n + 1 => do
    let name ← anyWord
    let args ← givenArguments n
    if ← isNext (.closing .tag) then return [(name, args)]
    takeSign "|"
    return (name, args) :: (← filterChain n)

/-- The bindings of a scope; those so far are in reverse. -/
def bindings : Nat → List (Target × Expr) → Parse (List (Target × Expr))
  | 0, _ => fail
  | n + 1, done => do
    if ← isNext (.closing .tag) then return done.reverse
    if !done.isEmpty then takeSign ","
    let t ← if ← isNext (.sign "(") then target n else pure (.name (← freshName))
    takeSign "="
    bindings n ((t, ← expr n) :: done)

/-- The names that are taken from a template, each with the name that it gets; those so far are in
reverse. -/
def importedNames : Nat → List (String × String) → Parse (List (String × String))
  | 0, _ => fail
  | n + 1, done => do
    if ← isNext (.closing .tag) then return done.reverse
    if !done.isEmpty then takeSign ","
    if (← isNext (.closing .tag)) || (← isWord ["with", "without"]) then
      contextWords
      return done.reverse
    let name ← freshName
    let newName ← if ← take? (.word "as") then freshName else pure name
    if ← isWord ["with", "without"] then
      contextWords
      return ((name, newName) :: done).reverse
    importedNames n ((name, newName) :: done)

/-- The parameters of a macro after the opening bracket; those so far are in reverse. After one
with a default value all have one. -/
def params : Nat → Params → Parse Params
  | 0, _ => fail
  | n + 1, done => do
    if ← take? (.sign ")") then return done.reverse
    if !done.isEmpty then
      takeSign ","
      if ← take? (.sign ")") then return done.reverse
    let name ← freshName
    if ← take? (.sign "=") then params n ((name, some (← expr n)) :: done)
    else if done.any fun p => p.2.isSome then fail
    else params n ((name, none) :: done)

def seekingCaller {α : Type} (read : Parse α) : Parse (α × Bool) := do
  let before := (← get).tokens
  let a ← read
  let left := (← get).tokens.length
  return (a, (before.take (before.length - left)).contains (.word "caller"))

def declareBlock (name : String) : Parse Unit := do
  if (← get).blocks.contains name then throw .malformed
  modify fun s => { s with blocks := name :: s.blocks }

mutual

/-- Statements up to the end of the template or up to a tag with one of the words `ends`, whose
word comes next then. The statements so far are in reverse. -/
def stmts : Nat → Bool → List String → List Stmt → Parse (List Stmt)
  | 0, _, _, _ => fail
  | n + 1, inMacro, ends, done => do
    match ← peek with
    | none => return done.reverse
    | some (.text s) =>
      skip
      stmts n inMacro ends (.text s :: done)
    | some (.opening .print) =>
      skip
      let e ← expr n
      take (.closing .print)
      stmts n inMacro ends (.print e :: done)
    | some (.opening .tag) =>
      skip
      if ← isWord ends then return done.reverse
      let s ← stmt n inMacro
      endTag
      stmts n inMacro ends (s :: done)
    | some _ => fail

def bodyUntil : Nat → Bool → List String → Parse (List Stmt × String)
  | 0, _, _ => fail
  | n + 1, inMacro, ends => do
    endTag
    let body ← stmts n inMacro ends []
    return (body, ← anyWord)

def bodyOf : Nat → Bool → String → Parse (List Stmt)
  | 0, _, _ => fail
  | n + 1, inMacro, word => return (← bodyUntil n inMacro [word]).1

def stmt : Nat → Bool → Parse Stmt
  | 0, _ => fail
  | n + 1, inMacro => do
    match ← anyWord with
    | "for" => loopTag n inMacro
    | "if" => choiceTag n inMacro
    | "with" =>
      let bound ← bindings n []
      return .bind bound (← bodyOf n inMacro "endwith")
    | "set" => setTag n inMacro
    | "autoescape" =>
      let mode ← expr n
      return .escaping mode (← bodyOf n inMacro "endautoescape")
    | "filter" =>
      let chain ← filterChain n
      return .filtered chain (← bodyOf n inMacro "endfilter")
    | "block" => blockTag n inMacro
    | "extends" => return .extend (← expr n)
    | "include" => includeTag n
    | "import" =>
      let e ← expr n
      takeWord "as"
      let t ← target n
      contextWords
      return .useAs e t
    | "from" =>
      let e ← expr n
      takeWord "import"
      return .useNames e (← importedNames n [])
    | "macro" =>
      let name ← anyWord
      takeSign "("
      let ps ← params n []
      let (body, callsBack) ← seekingCaller (bodyOf n true "endmacro")
      return .define name ps body callsBack
    | "call" =>
      let ps ← if ← take? (.sign "(") then params n [] else pure []
      match ← expr n with
      | .call f args =>
        let (body, callsBack) ← seekingCaller (bodyOf n true "endcall")
        return .wrap f args ps body callsBack
      | _ => throw .malformed
    | "do" =>
      match ← expr n with
      | .call f args => return .doNothing (.call f args)
      | _ => throw .malformed
    | _ => throw .malformed

def loopTag : Nat → Bool → Parse Stmt
  | 0, _ => fail
  | n + 1, inMacro => do
    let t ← target n
    takeWord "in"
    let source ← either n
    let cond ← if ← take? (.word "if") then pure (some (← expr n)) else pure none
    let again ← take? (.word "recursive")
    match ← bodyUntil n inMacro ["endfor", "else"] with
    | (body, "else") => return .each t source cond again body (← bodyOf n inMacro "endfor")
    | (body, _) => return .each t source cond again body []

def choiceTag : Nat → Bool → Parse Stmt
  | 0, _ => fail
  | n + 1, inMacro => do
    let cond ← expr n
    match ← bodyUntil n inMacro ["endif", "else", "elif"] with
    | (yes, "else") => return .choose cond yes (← bodyOf n inMacro "endif")
    | (yes, "elif") => return .choose cond yes [← choiceTag n inMacro]
    | (yes, _) => return .choose cond yes []

def setTag : Nat → Bool → Parse Stmt
  | 0, _ => fail
  | n + 1, inMacro => do
    let (t, inBrackets) ← setTarget n
    if !inBrackets && (← isNext (.closing .tag)) then
      return .capture t [] (← bodyOf n inMacro "endset")
    if !inBrackets && (← take? (.sign "|")) then
      let chain ← filterChain n
      return .capture t chain (← bodyOf n inMacro "endset")
    takeSign "="
    return .assign t (← expr n)

def blockTag : Nat → Bool → Parse Stmt
  | 0, _ => fail
  | n + 1, inMacro => do
    if inMacro then throw .malformed
    let name ← anyWord
    declareBlock name
    let body ← bodyOf n inMacro "endblock"
    match ← peek with
    | some (.word w) =>
      if w != name then throw .malformed
      skip
    | _ => pure ()
    return .block name body

def includeTag : Nat → Parse Stmt
  | 0 => fail
  | n + 1 => do
    let e ← expr n
    contextWords
    let optional ← take? (.word "ignore")
    if optional then
      takeWord "missing"
      contextWords
    return .insert e optional

end

end Parse

def parse (text : String) : Except TemplateFault Template := do
  let tokens := Token.ofTemplate text
  let (body, _) ← (Parse.stmts (20 * tokens.length + 20) false [] []).run { tokens }
  return ⟨body⟩

end DocSite.Template
