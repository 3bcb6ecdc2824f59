import DocSite.Proofs.Template.Keeps
import DocSite.Template.Run

namespace DocSite.Template.Machine

variable {σ : Type} {I : σ → Prop} {h : Host σ} {n : Nat}

/-- Everything that runs with this bound keeps what holds of the state of the host. -/
structure RunsKeep (h : Host σ) (I : σ → Prop) (n : Nat) : Prop where
  eval : ∀ e, Keeps I (eval h n e)
  evalOptional : ∀ e, Keeps I (evalOptional h n e)
  evalArgs : ∀ args, Keeps I (evalArgs h n args)
  callExpr : ∀ f args more, Keeps I (callExpr h n f args more)
  callName : ∀ name args, Keeps I (callName h n name args)
  callMethod : ∀ d name args, Keeps I (callMethod h n d name args)
  call : ∀ d args, Keeps I (call h n d args)
  callRoutine : ∀ r args, Keeps I (callRoutine h n r args)
  assignParams : ∀ params, Keeps I (assignParams h n params)
  applyFilters : ∀ filters d, Keeps I (applyFilters h n filters d)
  runAll : ∀ stmts, Keeps I (runAll h n stmts)
  runBody : ∀ body, Keeps I (runBody h n body)
  runBlock : ∀ name, Keeps I (runBlock h n name)
  runParentBlock : Keeps I (runParentBlock h n)
  insertFirst : ∀ names optional missed, Keeps I (insertFirst h n names optional missed)
  insert : ∀ d optional, Keeps I (insert h n d optional)
  loop : ∀ target body again items, Keeps I (loop h n target body again items)
  loopItems : ∀ target cond items, Keeps I (loopItems h n target cond items)
  run : ∀ s, Keeps I (run h n s)

theorem runsKeep_zero : RunsKeep h I 0 where
  eval _ := keeps_throw _
  evalOptional _ := keeps_throw _
  evalArgs _ := keeps_throw _
  callExpr _ _ _ := keeps_throw _
  callName _ _ := keeps_throw _
  callMethod _ _ _ := keeps_throw _
  call _ _ := keeps_throw _
  callRoutine _ _ := keeps_throw _
  assignParams _ := keeps_throw _
  applyFilters _ _ := keeps_throw _
  runAll _ := keeps_throw _
  runBody _ := keeps_throw _
  runBlock _ := keeps_throw _
  runParentBlock := keeps_throw _
  insertFirst _ _ _ := keeps_throw _
  insert _ _ := keeps_throw _
  loop _ _ _ _ := keeps_throw _
  loopItems _ _ _ := keeps_throw _
  run _ := keeps_throw _

namespace RunsKeep

theorem eval_succ (k : RunsKeep h I n) (e : Expr) : Keeps I (Machine.eval h (n + 1) e) := by
  cases e with
  | const d => exact keeps_pure d
  | name x => exact keeps_get_bind fun m => keeps_pure _ m
  | list items => exact (keeps_mapM k.eval items).bind fun _ => keeps_pure _
  | dict entries =>
    refine (keeps_mapM (fun e => ?_) entries).bind fun _ => keeps_pure _
    refine (k.eval e.1).bind fun key => ?_
    split
    · exact (k.eval e.2).bind fun _ => keeps_pure _
    · exact keeps_throw _
  | negate e => exact (k.eval e).bind fun _ => keeps_lift _
  | not e => exact (k.eval e).bind fun _ => keeps_pure _
  | both a b =>
    refine (k.eval a).bind fun d => ?_
    split
    · exact k.eval b
    · exact keeps_pure d
  | either a b =>
    refine (k.eval a).bind fun d => ?_
    split
    · exact keeps_pure d
    · exact k.eval b
  | binary op a b => exact (k.eval a).bind fun _ => (k.eval b).bind fun _ => keeps_lift _
  | choice cond yes no =>
    refine (k.eval cond).bind fun d => ?_
    split
    · exact k.eval yes
    · exact k.evalOptional no
  | field e name => exact (k.eval e).bind fun _ => keeps_lift _
  | item e key => exact (k.eval e).bind fun _ => (k.eval key).bind fun _ => keeps_lift _
  | slice e start stop step =>
    exact (k.eval e).bind fun _ => (k.evalOptional start).bind fun _ =>
      (k.evalOptional stop).bind fun _ => (k.evalOptional step).bind fun _ => keeps_lift _
  | filter e name args =>
    exact (k.eval e).bind fun d => (k.evalArgs args).bind fun args => keeps_applyFilter name d args
  | test e name args =>
    exact (k.eval e).bind fun d => (k.evalArgs args).bind fun args => keeps_applyTest name d args
  | call f args => exact k.callExpr f args []

theorem evalOptional_succ (k : RunsKeep h I n) (e : Option Expr) :
    Keeps I (Machine.evalOptional h (n + 1) e) := by
  cases e with
  | none => exact keeps_pure _
  | some e => exact k.eval e

theorem evalArgs_succ (k : RunsKeep h I n) (args : List Argument) :
    Keeps I (Machine.evalArgs h (n + 1) args) := by
  refine (keeps_mapM (fun a => ?_) args).bind fun _ => keeps_pure _
  exact (k.eval a.2).bind fun _ => keeps_pure _

theorem callExpr_succ (k : RunsKeep h I n) (f : Expr) (args : List Argument)
    (more : List (String × Datum)) : Keeps I (Machine.callExpr h (n + 1) f args more) := by
  unfold Machine.callExpr
  dsimp only
  split
  · exact (k.evalArgs args).bind fun _ => k.callName _ _
  · refine (k.evalArgs args).bind fun values => ?_
    split
    · exact (k.runBlock _).capture
    · exact keeps_throw _
  · exact (k.eval _).bind fun d => (k.evalArgs args).bind fun _ => k.callMethod d _ _
  · exact (k.eval f).bind fun d => (k.evalArgs args).bind fun _ => k.call d _

theorem callName_succ (k : RunsKeep h I n) (name : String) (args : Args) :
    Keeps I (Machine.callName h (n + 1) name args) := by
  by_cases hsuper : name = "super"
  · subst hsuper
    rw [Machine.callName]
    split
    · exact k.runParentBlock
    · exact keeps_throw _
  by_cases hloop : name = "loop"
  · subst hloop
    rw [Machine.callName]
    refine keeps_get_bind fun m => ?_
    have hagain (plan : Target × List Stmt) (items : List Datum) :
        Keeps I (capture (Machine.loop h n plan.1 plan.2 true items)) :=
      (k.loop plan.1 plan.2 true items).capture
    dsimp only
    split
    · refine Keeps.bind (keeps_lift _) (fun items => ?_) m
      exact Keeps.bind (keeps_pure _) fun again => hagain again.1 again.2
    · refine Keeps.bind (keeps_throw _) (fun again => ?_) m
      exact hagain again.1 again.2
  · rw [Machine.callName]
    · refine keeps_get_bind fun m => ?_
      split
      · exact k.call _ args m
      · exact keeps_throw _ m
    · exact hsuper
    · exact hloop

theorem callMethod_succ (k : RunsKeep h I n) (d : Datum) (name : String) (args : Args) :
    Keeps I (Machine.callMethod h (n + 1) d name args) := by
  unfold Machine.callMethod
  split
  · split
    · split
      · exact keeps_pure _
      · exact keeps_pure _
    · exact keeps_throw _
  · exact k.call _ args
  · exact keeps_throw _

theorem call_succ (k : RunsKeep h I n) (hh : h.Keeps I) (d : Datum) (args : Args) :
    Keeps I (Machine.call h (n + 1) d args) := by
  unfold Machine.call
  split
  · exact keeps_callFunction hh _ args
  · refine keeps_get_bind fun m => ?_
    split
    · exact k.callRoutine _ args m
    · exact keeps_throw _ m
  · exact keeps_throw _

theorem callRoutine_succ (k : RunsKeep h I n) (r : Routine) (args : Args) :
    Keeps I (Machine.callRoutine h (n + 1) r args) := by
  refine (keeps_lift _).bind fun values => keeps_get_bind fun before => ?_
  refine (keepsAt_set (by exact id)).bind fun _ => keeps_checkDepth.bind fun _ => ?_
  refine Keeps.bind (Keeps.capture ?_) fun result => ?_
  · exact (k.assignParams _).bind fun _ => k.runBody r.body
  · exact (keeps_modify fun _ => by rfl).bind fun _ => keeps_pure result

theorem assignParams_succ (k : RunsKeep h I n) (params : List ((String × Option Expr) × Datum)) :
    Keeps I (Machine.assignParams h (n + 1) params) := by
  refine keeps_forM (fun p => ?_) params
  split
  · exact (k.eval _).bind fun _ => keeps_store _ _
  · exact keeps_store _ _

theorem applyFilters_succ (k : RunsKeep h I n) (filters : List FilterCall) (d : Datum) :
    Keeps I (Machine.applyFilters h (n + 1) filters d) := by
  refine keeps_foldlM (fun d f => ?_) filters d
  exact (k.evalArgs f.2).bind fun args => keeps_applyFilter f.1 d args

theorem runAll_succ (k : RunsKeep h I n) (stmts : List Stmt) :
    Keeps I (Machine.runAll h (n + 1) stmts) := keeps_forM k.run stmts

theorem runBody_succ (k : RunsKeep h I n) (body : List Stmt) :
    Keeps I (Machine.runBody h (n + 1) body) := by
  refine keeps_get_bind fun before => (keepsAt_set (by exact id)).bind fun _ => ?_
  refine (k.runAll body).bind fun _ => keeps_get_bind fun after => ?_
  refine (keepsAt_set (by exact id)).bind fun _ => ?_
  split
  · exact k.runBody _
  · exact keeps_pure _

theorem runBlock_succ (k : RunsKeep h I n) (name : String) :
    Keeps I (Machine.runBlock h (n + 1) name) := by
  refine keeps_get_bind fun before => ?_
  split
  · refine Keeps.bind (keeps_modify fun _ => by rfl) (fun _ => ?_) before
    exact ((k.runBody _).within {}).bind fun _ => keeps_modify fun _ => by rfl
  · exact keeps_throw _ before

theorem runParentBlock_succ (k : RunsKeep h I n) : Keeps I (Machine.runParentBlock h (n + 1)) := by
  refine keeps_get_bind fun m => ?_
  split
  · split
    · rename_i body _
      refine Keeps.bind (keeps_modify fun _ => by rfl) (fun _ => ?_) m
      have hbody : Keeps I (tryCatch (Machine.runBody h n body) fun _ => throw .badParentBlock) :=
        (k.runBody body).tryCatch fun _ => keeps_throw _
      exact (hbody.within {}).capture.bind fun d =>
        (keeps_modify fun _ => by rfl).bind fun _ => keeps_pure d
    · exact keeps_throw _ m
  · exact keeps_throw _ m

theorem insertFirst_succ (k : RunsKeep h I n) (hh : h.Keeps I) (names : List Datum)
    (optional missed : Bool) : Keeps I (Machine.insertFirst h (n + 1) names optional missed) := by
  cases names with
  | nil =>
    rw [Machine.insertFirst]
    split
    · exact keeps_throw _
    · exact keeps_pure _
  | cons d names =>
    cases d
    case str name safe =>
      rw [Machine.insertFirst]
      refine Keeps.bind (Keeps.tryCatch ((keeps_load hh name).map some) ?_) fun found => ?_
      · intro f
        split
        · exact keeps_pure _
        · exact keeps_throw _
      split
      · exact k.insertFirst names optional true
      · refine keeps_get_bind fun before => (keepsAt_set (by exact id)).bind fun _ => ?_
        refine keeps_checkDepth.bind fun _ => ?_
        refine Keeps.bind ((k.runBody _).tryCatch fun _ => keeps_throw _) fun _ => ?_
        exact keeps_modify fun _ => by rfl
    all_goals exact keeps_throw _

theorem insert_succ (k : RunsKeep h I n) (d : Datum) (optional : Bool) :
    Keeps I (Machine.insert h (n + 1) d optional) := by
  cases d
  case list names => exact k.insertFirst names optional false
  all_goals exact k.insertFirst _ optional false

theorem loop_succ (k : RunsKeep h I n) (target : Target) (body : List Stmt) (again : Bool)
    (items : List Datum) : Keeps I (Machine.loop h (n + 1) target body again items) := by
  refine keeps_get_bind fun m => ?_
  refine Keeps.within (keeps_forM (fun item => ?_) _) _ m
  exact (keeps_store _ _).bind fun _ => (keeps_assign target _).bind fun _ => k.runAll body

theorem loopItems_succ (k : RunsKeep h I n) (target : Target) (cond : Option Expr)
    (items : List Datum) : Keeps I (Machine.loopItems h (n + 1) target cond items) := by
  cases cond with
  | none => exact keeps_pure items
  | some cond =>
    refine Keeps.within (keeps_filterM (fun item => ?_) items) {}
    exact (keeps_assign target item).bind fun _ => (k.eval cond).bind fun _ => keeps_pure _

theorem run_succ (k : RunsKeep h I n) (hh : h.Keeps I) (s : Stmt) :
    Keeps I (Machine.run h (n + 1) s) := by
  cases s with
  | text s => exact keeps_write s
  | print e => exact (k.eval e).bind fun d => keeps_writeDatum d
  | doNothing e => exact (k.eval e).bind fun _ => keeps_pure _
  | each target source cond again body rest =>
    refine (k.eval source).bind fun d => (keeps_lift _).bind fun items => ?_
    refine (k.loopItems target cond items).bind fun items => ?_
    split
    · exact k.runAll rest
    · exact k.loop target body again items
  | choose cond yes no =>
    refine (k.eval cond).bind fun d => ?_
    split
    · exact k.runAll yes
    · exact k.runAll no
  | bind bindings body =>
    refine Keeps.within ?_ {}
    refine (keeps_forM (fun b => ?_) bindings).bind fun _ => k.runAll body
    exact (k.eval b.2).bind fun d => keeps_assign b.1 d
  | assign target e => exact (k.eval e).bind fun d => keeps_assign target d
  | capture target filters body =>
    exact (k.runAll body).capture.bind fun d => (k.applyFilters filters d).bind fun d =>
      keeps_assign target d
  | escaping mode body =>
    refine keeps_get_bind fun before => Keeps.bind (k.eval mode) (fun d => ?_) before
    split
    · exact (keeps_modify fun _ => by rfl).bind fun _ => (k.runAll body).bind fun _ =>
        keeps_modify fun _ => by rfl
    · exact keeps_throw _
  | filtered filters body =>
    exact (k.runAll body).capture.bind fun d => (k.applyFilters filters d).bind fun d =>
      keeps_writeDatum d
  | block name body =>
    refine keeps_get_bind fun m => ?_
    split
    · exact k.runBlock name m
    · exact keeps_pure _ m
  | extend template => exact (k.eval template).bind fun d => keeps_extend hh d
  | insert template optional => exact (k.eval template).bind fun d => k.insert d optional
  | useAs template target =>
    refine (k.eval template).bind fun d => ?_
    refine Keeps.bind (Keeps.within ?_ {}) fun names => keeps_assign target _
    exact (k.insert d false).silently.bind fun _ => keeps_get_bind fun m => keeps_pure _ m
  | useNames template names =>
    refine (k.eval template).bind fun d => ?_
    refine Keeps.bind (Keeps.within ?_ {}) fun values =>
      keeps_forM (fun v => keeps_store _ _) values
    exact (k.insert d false).silently.bind fun _ => keeps_get_bind fun m => keeps_pure _ m
  | define name params body callsBack =>
    exact (keeps_declare params body callsBack).bind fun d => keeps_store name d
  | wrap f args params body callsBack =>
    exact (keeps_declare params body callsBack).bind fun caller =>
      (k.callExpr f args [("caller", caller)]).bind fun d => keeps_writeDatum d

end RunsKeep

theorem runsKeep (hh : h.Keeps I) (n : Nat) : RunsKeep h I n := by
  induction n with
  | zero => exact runsKeep_zero
  | succ n k =>
    exact {
      eval := k.eval_succ
      evalOptional := k.evalOptional_succ
      evalArgs := k.evalArgs_succ
      callExpr := k.callExpr_succ
      callName := k.callName_succ
      callMethod := k.callMethod_succ
      call := k.call_succ hh
      callRoutine := k.callRoutine_succ
      assignParams := k.assignParams_succ
      applyFilters := k.applyFilters_succ
      runAll := k.runAll_succ
      runBody := k.runBody_succ
      runBlock := k.runBlock_succ
      runParentBlock := k.runParentBlock_succ
      insertFirst := k.insertFirst_succ hh
      insert := k.insert_succ
      loop := k.loop_succ
      loopItems := k.loopItems_succ
      run := k.run_succ hh }

end DocSite.Template.Machine
