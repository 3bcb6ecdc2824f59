import DocSite.Template.Machine
import DocSite.Template.Reader.Stmt

namespace DocSite.Template.Machine

variable {σ : Type} (h : Host σ)

mutual

/-- The value of an expression. The first argument of this and the following functions bounds how
deeply templates may be nested in each other; the depth of a rendering stays far below it. -/
def eval : Nat → Expr → Eval σ Datum
  | 0, _ => throw .invalidOperation
  | n + 1, e => do
    match e with
    | .const d => return d
    | .name x => return (lookup? h (← get) x).getD .undefined
    | .list items => return .list (← items.mapM (eval n))
    | .dict entries =>
      let entries ← entries.mapM fun (e : Expr × Expr) => do
        match ← eval n e.1 with
        | .str key _ => return (key, ← eval n e.2)
        | _ => throw .notKey
      return .dict (Dict.ofList entries)
    | .negate e => (← eval n e).negate
    | .not e => return .bool !(← eval n e).truth
    | .both a b =>
      let d ← eval n a
      if d.truth then eval n b else return d
    | .either a b =>
      let d ← eval n a
      if d.truth then return d else eval n b
    | .binary op a b =>
      let d ← eval n a
      operate op d (← eval n b)
    | .choice cond yes no => if (← eval n cond).truth then eval n yes else evalOptional n no
    | .field e name => (← eval n e).field name
    | .item e key =>
      let d ← eval n e
      d.item (← eval n key)
    | .slice e start stop step =>
      let d ← eval n e
      let start ← evalOptional n start
      let stop ← evalOptional n stop
      d.slice start stop (← evalOptional n step)
    | .filter e name args =>
      let d ← eval n e
      applyFilter h name d (← evalArgs n args)
    | .test e name args =>
      let d ← eval n e
      applyTest name d (← evalArgs n args)
    | .call f args => callExpr n f args []

def evalOptional : Nat → Option Expr → Eval σ Datum
  | 0, _ => throw .invalidOperation
  | _ + 1, none => return .undefined
  | n + 1, some e => eval n e

def evalArgs : Nat → List Argument → Eval σ Args
  | 0, _ => throw .invalidOperation
  | n + 1, args => do
    let values ← args.mapM fun (a : Argument) => do return (a.1, ← eval n a.2)
    return {
      plain := values.filterMap fun a => if a.1.isNone then some a.2 else none
      named := values.filterMap fun a => a.1.map fun name => (name, a.2) }

/-- The value of a call; `more` are arguments with names that are given besides. -/
def callExpr : Nat → Expr → List Argument → List (String × Datum) → Eval σ Datum
  | 0, _, _, _ => throw .invalidOperation
  | n + 1, f, args, more => do
    let withMore (args : Args) : Args := { args with named := args.named ++ more }
    match f with
    | .name x => callName n x (withMore (← evalArgs n args))
    | .field (.name "self") name =>
      let values ← evalArgs n args
      if values.plain.isEmpty && values.named.isEmpty then capture (runBlock n name)
      else throw .unknownMethod
    | .field e name =>
      let d ← eval n e
      callMethod n d name (withMore (← evalArgs n args))
    | f =>
      let d ← eval n f
      call n d (withMore (← evalArgs n args))

def callName : Nat → String → Args → Eval σ Datum
  | 0, _, _ => throw .invalidOperation
  | n + 1, "super", args =>
    if args.plain.isEmpty && args.named.isEmpty then runParentBlock n else throw .invalidOperation
  | n + 1, "loop", args => do
    let again ← match args.plain, (← get).frames.findSome? Frame.loop? with
      | [d], some (some plan, _) => pure (plan, ← d.items)
      | _, _ => throw .invalidOperation
    capture (loop n again.1.1 again.1.2 true again.2)
  | n + 1, name, args => do
    match lookup? h (← get) name with
    | some d => call n d args
    | none => throw .unknownFunction

def callMethod : Nat → Datum → String → Args → Eval σ Datum
  | 0, _, _, _ => throw .invalidOperation
  | n + 1, d, name, args => do
    match d, d.entry? name with
    | .loop fields, none =>
      match name, fields.lookup "index0" with
      | "cycle", some (.int i) =>
        if args.plain.isEmpty then return .undefined
        else return args.plain[i.toNat % args.plain.length]?.getD .undefined
      | _, _ => throw .unknownMethod
    | _, some f => call n f args
    | _, none => throw .unknownMethod

def call : Nat → Datum → Args → Eval σ Datum
  | 0, _, _ => throw .invalidOperation
  | n + 1, d, args => do
    match d with
    | .builtin name => callFunction h name args
    | .macroRef number =>
      match (← get).routines[number]? with
      | some r => callRoutine n r args
      | none => throw .invalidOperation
    | _ => throw .invalidOperation

/-- Calls a macro: its body sees the arguments and the names that it knows. -/
def callRoutine : Nat → Routine → Args → Eval σ Datum
  | 0, _, _ => throw .invalidOperation
  | n + 1, r, args => do
    let values ← bindArgs r args
    let before ← get
    set { before with
      frames := [{ locals := if r.callsBack then
        [("caller", (args.named? "caller").getD .undefined)] else [] }]
      base := before.closures[r.closure]?.getD []
      inMacro := true
      outer := before.depth + macroDepth
      blocks := []
      block? := none
      loaded := []
      parent? := none }
    checkDepth
    let result ← capture do
      assignParams n (r.params.zip values).reverse
      runBody n r.body
    modify fun m => { before with
      host := m.host, closures := m.closures, routines := m.routines }
    return result

/-- Gives parameters their values, from the last on; one without a value gets its default. -/
def assignParams : Nat → List ((String × Option Expr) × Datum) → Eval σ Unit
  | 0, _ => throw .invalidOperation
  | n + 1, params => params.forM fun (p : (String × Option Expr) × Datum) => do
    match p.1.2, p.2 with
    | some e, .undefined => store p.1.1 (← eval n e)
    | _, d => store p.1.1 d

def applyFilters : Nat → List FilterCall → Datum → Eval σ Datum
  | 0, _, _ => throw .invalidOperation
  | n + 1, filters, d => filters.foldlM (fun d (f : FilterCall) => do
      applyFilter h f.1 d (← evalArgs n f.2)) d

def runAll : Nat → List Stmt → Eval σ Unit
  | 0, _ => throw .invalidOperation
  | n + 1, stmts => stmts.forM (run n)

/-- Runs a body and, if it extends a template, that template after it; what the body writes from
then on is dropped. -/
def runBody : Nat → List Stmt → Eval σ Unit
  | 0, _ => throw .invalidOperation
  | n + 1, body => do
    let before ← get
    set { before with parent? := none }
    runAll n body
    let after ← get
    set { after with parent? := before.parent?, discarding := before.discarding }
    match after.parent? with
    | some t => runBody n t.body
    | none => return ()

def runBlock : Nat → String → Eval σ Unit
  | 0, _ => throw .invalidOperation
  | n + 1, name => do
    let before ← get
    match before.blocks.lookup name with
    | some stack =>
      modify fun m => { m with block? := some name }
      within {} (runBody n (stack.bodies[stack.depth]?.getD []))
      modify fun m => { m with block? := before.block? }
    | none => throw .unknownBlock

def runParentBlock : Nat → Eval σ Datum
  | 0 => throw .invalidOperation
  | n + 1 => do
    let m ← get
    match m.block?.bind fun name => (m.blocks.lookup name).map fun stack => (name, stack) with
    | some (name, stack) =>
      match stack.bodies[stack.depth + 1]? with
      | some body =>
        let setDepth (depth : Nat) : Eval σ Unit := modify fun m => { m with
          blocks := (name, { stack with depth }) :: m.blocks.filter fun b => b.1 != name }
        setDepth (stack.depth + 1)
        let d ← capture (within {} (tryCatch (runBody n body) fun _ => throw .badParentBlock))
        setDepth stack.depth
        return d
      | none => throw .invalidOperation
    | none => throw .invalidOperation

def insertFirst : Nat → List Datum → Bool → Bool → Eval σ Unit
  | 0, _, _, _ => throw .invalidOperation
  | _ + 1, [], optional, missed => if missed && !optional then throw .templateMissing else return ()
  | n + 1, .str name _ :: names, optional, _ => do
    let found ← tryCatch (some <$> load h name) fun
      | .templateMissing => return none
      | f => throw f
    match found with
    | none => insertFirst n names optional true
    | some t =>
      let before ← get
      set { before with
        escape := .ofName name
        ownEscape := .ofName name
        outer := before.outer + templateDepth
        blocks := t.blocks.map fun (b : String × List Stmt) => (b.1, ⟨[b.2], 0⟩) }
      checkDepth
      tryCatch (runBody n t.body) fun _ => throw .badInclude
      modify fun m => { m with
        escape := before.escape
        ownEscape := before.ownEscape
        outer := before.outer
        blocks := before.blocks
        loaded := before.loaded }
  | _ + 1, _ :: _, _, _ => throw .invalidOperation

/-- Runs the template that a value names. A list names several. -/
def insert : Nat → Datum → Bool → Eval σ Unit
  | 0, _, _ => throw .invalidOperation
  | n + 1, .list names, optional => insertFirst n names optional false
  | n + 1, d, optional => insertFirst n [d] optional false

def loop : Nat → Target → List Stmt → Bool → List Datum → Eval σ Unit
  | 0, _, _, _, _ => throw .invalidOperation
  | n + 1, target, body, again, items => do
    let all := items.toArray
    let depth := (← get).loopDepth
    let plan := if again then some (target, body) else none
    within { loop? := some (plan, depth) } <|
      items.zipIdx.forM fun (item : Datum × Nat) => do
        store "loop" (loopDatum all depth item.2)
        assign target item.1
        runAll n body

def loopItems : Nat → Target → Option Expr → List Datum → Eval σ (List Datum)
  | 0, _, _, _ => throw .invalidOperation
  | _ + 1, _, none, items => return items
  | n + 1, target, some cond, items => within {} <| items.filterM fun item => do
    assign target item
    return (← eval n cond).truth

def run : Nat → Stmt → Eval σ Unit
  | 0, _ => throw .invalidOperation
  | n + 1, s => do
    match s with
    | .text s => write s
    | .print e => writeDatum (← eval n e)
    | .doNothing e => let _ ← eval n e
    | .each target source cond again body rest =>
      let items ← loopItems n target cond (← (← eval n source).items)
      if items.isEmpty then runAll n rest else loop n target body again items
    | .choose cond yes no => if (← eval n cond).truth then runAll n yes else runAll n no
    | .bind bindings body => within {} do
      bindings.forM fun (b : Target × Expr) => do assign b.1 (← eval n b.2)
      runAll n body
    | .assign target e => assign target (← eval n e)
    | .capture target filters body =>
      assign target (← applyFilters n filters (← capture (runAll n body)))
    | .escaping mode body =>
      let before ← get
      match before.ownEscape.ofDatum? (← eval n mode) with
      | some mode =>
        modify fun m => { m with escape := mode }
        runAll n body
        modify fun m => { m with escape := before.escape }
      | none => throw .invalidOperation
    | .filtered filters body =>
      writeDatum (← applyFilters n filters (← capture (runAll n body)))
    | .block name _ => if !(← get).discarding then runBlock n name
    | .extend template => extend h (← eval n template)
    | .insert template optional => insert n (← eval n template) optional
    | .useAs template target =>
      let d ← eval n template
      let names ← within {} do
        silently (insert n d false)
        return ((← get).frames.head?.map Frame.locals).getD []
      assign target (.dict (Dict.ofList names.reverse))
    | .useNames template names =>
      let d ← eval n template
      let values ← within {} do
        silently (insert n d false)
        let m ← get
        return names.map fun x => (x.2, (lookup? h m x.1).getD .undefined)
      values.forM fun (v : String × Datum) => store v.1 v.2
    | .define name params body callsBack => store name (← declare params body callsBack)
    | .wrap f args params body callsBack =>
      let caller ← declare params body callsBack
      writeDatum (← callExpr n f args [("caller", caller)])

end

end DocSite.Template.Machine
