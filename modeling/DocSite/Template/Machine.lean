import DocSite.Template.Predicate
import DocSite.Template.Syntax

namespace DocSite.Template

/-- What templates can reach besides values: other templates, and the filters and functions of the
place that they are used in. The place may keep a state. -/
structure Host (σ : Type) where
  template : String → σ → Except TemplateFault Template × σ
  filter? : String → Option Filter
  function? : String → Option (Args → σ → Except TemplateFault Datum × σ)

abbrev Scope := List (String × Datum)

structure Frame where
  locals : Scope := []
  /-- The loop that the frame belongs to: what it does with an item if it may be run again from
  its body, and how many such loops it is in. -/
  loop? : Option (Option (Target × List Stmt) × Nat) := none
  /-- The number of the names that macros declared in the frame know. -/
  closure? : Option Nat := none
  deriving Inhabited

structure Routine where
  params : Params
  body : List Stmt
  /-- Whether the body may call back what it was wrapped around. -/
  callsBack : Bool
  /-- The number of the names that the macro knows. -/
  closure : Nat
  deriving Inhabited

/-- The bodies of a block, from the template that was asked for to the outermost one that it
extends, and which of them is being run. -/
structure BlockStack where
  bodies : List (List Stmt)
  depth : Nat := 0
  deriving Inhabited

structure Machine (σ : Type) where
  /-- The state of the place. -/
  host : σ
  /-- The innermost frame comes first. -/
  frames : List Frame := [{}]
  /-- The values of the page, or what a macro knows. -/
  base : Scope
  /-- Whether a macro is run, in which every name is known. -/
  inMacro : Bool := false
  /-- The depth outside of the frames. -/
  outer : Nat := 0
  closures : Array Scope := #[]
  routines : Array Routine := #[]
  out : String := ""
  /-- Whether what is written is dropped. -/
  discarding : Bool := false
  escape : Escape
  /-- The notation that the template starts with. -/
  ownEscape : Escape
  blocks : List (String × BlockStack) := []
  /-- The block that is being run. -/
  block? : Option String := none
  /-- The names of the templates that a template that extends another may not name again. -/
  loaded : List String := []
  /-- The template that the present one extends. -/
  parent? : Option Template := none

abbrev Eval (σ α : Type) := ExceptT TemplateFault (StateM (Machine σ)) α

namespace Machine

variable {σ : Type}

def depthLimit : Nat := 500

def templateDepth : Nat := 10

def macroDepth : Nat := 4

def depth (m : Machine σ) : Nat := m.outer + m.frames.length

def checkDepth : Eval σ Unit := do
  if depthLimit < (← get).depth then throw .invalidOperation

def within {α : Type} (f : Frame) (step : Eval σ α) : Eval σ α := do
  checkDepth
  modify fun m => { m with frames := f :: m.frames }
  let a ← step
  modify fun m => { m with frames := m.frames.tail }
  return a

def write (s : String) : Eval σ Unit :=
  modify fun m => if m.discarding then m else { m with out := m.out ++ s }

def writeDatum (d : Datum) : Eval σ Unit := do write ((← get).escape.write d)

def capture (step : Eval σ Unit) : Eval σ Datum := do
  let before ← get
  modify fun m => { m with out := "", discarding := false }
  step
  let after ← get
  set { after with out := before.out, discarding := before.discarding }
  return after.escape.captured after.out

def silently {α : Type} (step : Eval σ α) : Eval σ α := do
  let before ← get
  modify fun m => { m with discarding := true }
  let a ← step
  modify fun m => { m with discarding := before.discarding }
  return a

def functionNames : List String := ["range", "dict"]

def lookup? (h : Host σ) (m : Machine σ) (name : String) : Option Datum :=
  (m.frames.findSome? fun f => f.locals.lookup name).or <| (m.base.lookup name).or <|
    if functionNames.contains name || (h.function? name).isSome then some (.builtin name)
    else if m.inMacro then some .undefined
    else none

def setIn (scope : Scope) (name : String) (d : Datum) : Scope :=
  (name, d) :: scope.filter fun e => e.1 != name

/-- Gives a name a value in the innermost frame; the macros of the frame know it too. -/
def store (name : String) (d : Datum) : Eval σ Unit :=
  modify fun m =>
    match m.frames with
    | [] => m
    | f :: frames =>
      let closures := match f.closure? with
        | some n => m.closures.modify n fun scope => setIn scope name d
        | none => m.closures
      { m with frames := { f with locals := setIn f.locals name d } :: frames, closures }

def visible (m : Machine σ) : Scope := m.frames.flatMap Frame.locals ++ m.base

/-- The number of the names that macros of the innermost frame know. The first macro brings the
names that can be seen. -/
def closure : Eval σ Nat := do
  let m ← get
  match m.frames with
  | { closure? := some n, .. } :: _ => return n
  | f :: frames =>
    let n := m.closures.size
    set { m with
      frames := { f with closure? := some n } :: frames
      closures := m.closures.push m.visible }
    return n
  | [] => return 0

def declare (params : Params) (body : List Stmt) (callsBack : Bool) : Eval σ Datum := do
  let closure ← closure
  let m ← get
  set { m with routines := m.routines.push { params, body, callsBack, closure } }
  return .macroRef m.routines.size

/-- The values of a macro's parameters. Each is given at most once, and none is made up. -/
def bindArgs (r : Routine) (args : Args) : Except TemplateFault (List Datum) := do
  let names := r.params.map (·.1)
  if names.length < args.plain.length then throw .tooManyArguments
  let known := names.drop args.plain.length ++ if r.callsBack then ["caller"] else []
  if args.named.any fun a => !known.contains a.1 then throw .tooManyArguments
  return args.plain ++
    (names.drop args.plain.length).map fun name => (args.named? name).getD .undefined

mutual

/-- Assigns a value. A list of targets takes the items of a list of the same length. -/
def assign : Target → Datum → Eval σ Unit
  | .name x, d => store x d
  | .part, _ => throw .invalidOperation
  | .list ts, d => do
    match d with
    | .list _ | .dict _ | .loop _ =>
      let items ← d.items
      if items.length = ts.length then assignAll ts items else throw .cannotUnpack
    | _ => throw .cannotUnpack

def assignAll : List Target → List Datum → Eval σ Unit
  | t :: ts, d :: ds => do
    assign t d
    assignAll ts ds
  | _, _ => return ()

end

def rangeLimit : Nat := 100000

def rangeItems (start stop step : Nat) : Except TemplateFault Datum := do
  if step = 0 then throw .invalidOperation
  let count := (stop - start + step - 1) / step
  if rangeLimit < count then throw .invalidOperation
  return .list ((List.range count).map fun i => .int (start + i * step : Nat))

def rangeOf (args : Args) : Except TemplateFault Datum := do
  args.atMost 3 []
  let natural (d : Datum) : Except TemplateFault Nat :=
    match d with
    | .int n => if n < 0 then .error .invalidOperation else .ok n.toNat
    | _ => .error .invalidOperation
  let first ← natural (← args.required 0)
  let second ← (args.arg? 1).mapM natural
  let third ← (args.arg? 2).mapM natural
  match second with
  | some stop => rangeItems first stop (third.getD 1)
  | none => rangeItems 0 first (third.getD 1)

def callFunction (h : Host σ) (name : String) (args : Args) : Eval σ Datum := do
  match h.function? name with
  | some f =>
    let m ← get
    let (r, host) := f args m.host
    set { m with host }
    liftExcept r
  | none =>
    match name with
    | "range" => rangeOf args
    | "dict" =>
      let start ← match args.plain with
        | [] => pure []
        | [.dict entries] => pure entries
        | [_] => throw .invalidOperation
        | _ => throw .tooManyArguments
      return .dict (args.named.foldl (fun d e => Dict.insert e.1 e.2 d) start)
    | _ => throw .unknownFunction
where
  liftExcept (r : Except TemplateFault Datum) : Eval σ Datum := r

def filter? (h : Host σ) (name : String) : Option Filter :=
  let simple (name : String) : Option Filter := (h.filter? name).or (Filter.ofName? name)
  (simple name).or (Filter.overItems? simple name)

def applyFilter (h : Host σ) (name : String) (d : Datum) (args : Args) : Eval σ Datum := do
  match filter? h name with
  | some f => f (← get).escape d args
  | none => throw .unknownFilter

def applyTest (name : String) (d : Datum) (args : Args) : Eval σ Datum := do
  match Predicate.ofName? name with
  | some p => return .bool (← p d args)
  | none => throw .unknownTest

def load (h : Host σ) (name : String) : Eval σ Template := do
  let m ← get
  let (r, host) := h.template name m.host
  set { m with host }
  r

/-- Makes the template that a value names the frame of the present one. What is still to come of
the present one is run but not written. -/
def extend (h : Host σ) : Datum → Eval σ Unit
  | .str name _ => do
    let m ← get
    if m.parent?.isSome || m.loaded.contains name then throw .invalidOperation
    let t ← load h name
    let push (blocks : List (String × BlockStack)) (b : String × List Stmt) :
        List (String × BlockStack) :=
      match blocks.lookup b.1 with
      | some stack =>
        (b.1, { stack with bodies := stack.bodies ++ [b.2] }) :: blocks.filter fun c => c.1 != b.1
      | none => (b.1, ⟨[b.2], 0⟩) :: blocks
    modify fun m => { m with
      parent? := some t
      discarding := true
      loaded := name :: m.loaded
      blocks := t.blocks.foldl push m.blocks }
  | _ => throw .invalidOperation

def operate (op : Operator) (a b : Datum) : Except TemplateFault Datum :=
  match op with
  | .eq => .ok (.bool (a.same b))
  | .ne => .ok (.bool !(a.same b))
  | .lt => .ok (.bool (a.compare b).isLT)
  | .le => .ok (.bool (a.compare b).isLE)
  | .gt => .ok (.bool (a.compare b).isGT)
  | .ge => .ok (.bool (a.compare b).isGE)
  | .within => (b.contains a).map .bool
  | .add => a.add b
  | .sub => a.sub b
  | .mul => a.mul b
  | .div => a.div b
  | .quotient => a.quotient b
  | .remainder => a.remainder b
  | .power => a.power b
  | .concat => .ok (.text (a.display ++ b.display))

def loopDatum (items : Array Datum) (depth i : Nat) : Datum :=
  let n := items.size
  let near (j : Nat) : Datum := items[j]?.getD .undefined
  .loop (Dict.ofList [
    ("index", .int (i + 1)), ("index0", .int i), ("length", .int n),
    ("revindex", .int (n - i)), ("revindex0", .int (n - i - 1)),
    ("first", .bool (i == 0)), ("last", .bool (i + 1 == n)),
    ("depth", .int (depth + 1)), ("depth0", .int depth),
    ("previtem", if i = 0 then .undefined else near (i - 1)), ("nextitem", near (i + 1))])

def loopDepth (m : Machine σ) : Nat :=
  match m.frames.findSome? Frame.loop? with
  | some (some _, depth) => depth + 1
  | _ => 0

end Machine
end DocSite.Template
