import DocSite.Template.Machine

namespace DocSite.Template

/-- Reading templates and calling functions keeps what holds of the state of a host. -/
structure Host.Keeps {σ : Type} (h : Host σ) (I : σ → Prop) : Prop where
  template : ∀ name s, I s → I (h.template name s).2
  function : ∀ name f args s, h.function? name = some f → I s → I (f args s).2

namespace Machine

variable {σ α β : Type} {I : σ → Prop} {m m' : Machine σ} {h : Host σ}

/-- A step that starts here keeps what holds of the state of the host. -/
def KeepsAt (I : σ → Prop) (m : Machine σ) (x : Eval σ α) : Prop :=
  I m.host → I (x.run.run m).2.host

/-- A step keeps what holds of the state of the host. -/
def Keeps (I : σ → Prop) (x : Eval σ α) : Prop := ∀ m, KeepsAt I m x

theorem run_bind (x : Eval σ α) (f : α → Eval σ β) (m : Machine σ) : (x >>= f).run.run m =
    match x.run.run m with
    | (.ok a, m') => (f a).run.run m'
    | (.error e, m') => (.error e, m') := by
  rw [ExceptT.run_bind, StateT.run_bind]
  generalize x.run.run m = r
  obtain ⟨a | e, m'⟩ := r <;> rfl

theorem keeps_pure (a : α) : Keeps I (pure a : Eval σ α) := fun _ h => h

theorem keeps_throw (f : TemplateFault) : Keeps I (throw f : Eval σ α) := fun _ h => h

theorem keeps_lift (e : Except TemplateFault α) : Keeps I (liftM e : Eval σ α) := fun _ h => h

theorem KeepsAt.bind {x : Eval σ α} {f : α → Eval σ β} (hx : KeepsAt I m x)
    (hf : ∀ a, Keeps I (f a)) : KeepsAt I m (x >>= f) := by
  intro hm
  have hfirst := hx hm
  rw [run_bind]
  generalize x.run.run m = r at hfirst
  obtain ⟨a | e, m'⟩ := r
  · exact hfirst
  · exact hf _ m' hfirst

theorem Keeps.bind {x : Eval σ α} {f : α → Eval σ β} (hx : Keeps I x) (hf : ∀ a, Keeps I (f a)) :
    Keeps I (x >>= f) := fun m => (hx m).bind hf

theorem Keeps.map {x : Eval σ α} (hx : Keeps I x) (f : α → β) : Keeps I (f <$> x) := by
  rw [map_eq_pure_bind]
  exact hx.bind fun _ => keeps_pure _

/-- What follows a look at the state starts in that state. -/
theorem keeps_get_bind {f : Machine σ → Eval σ α} (hf : ∀ m, KeepsAt I m (f m)) :
    Keeps I (get >>= f) := hf

theorem keepsAt_set (hm : I m.host → I m'.host) : KeepsAt I m (set m' : Eval σ PUnit) := hm

theorem keeps_modify {f : Machine σ → Machine σ} (hf : ∀ m, (f m).host = m.host) :
    Keeps I (modify f : Eval σ PUnit) := fun m hm => by
  change I (f m).host
  rwa [hf m]

theorem Keeps.tryCatch {x : Eval σ α} {f : TemplateFault → Eval σ α} (hx : Keeps I x)
    (hf : ∀ e, Keeps I (f e)) : Keeps I (tryCatch x f) := by
  intro m hm
  have hfirst := hx m hm
  rw [ExceptT.run_tryCatch, StateT.run_bind]
  generalize x.run.run m = r at hfirst
  obtain ⟨a | e, m'⟩ := r
  · exact hf _ m' hfirst
  · exact hfirst

theorem keeps_mapM {f : α → Eval σ β} (hf : ∀ a, Keeps I (f a)) (as : List α) :
    Keeps I (as.mapM f) := by
  induction as with
  | nil => exact keeps_pure _
  | cons a as ih =>
    rw [List.mapM_cons]
    exact (hf a).bind fun _ => ih.bind fun _ => keeps_pure _

theorem keeps_forM {f : α → Eval σ PUnit} (hf : ∀ a, Keeps I (f a)) (as : List α) :
    Keeps I (as.forM f) := by
  induction as with
  | nil => exact keeps_pure _
  | cons a as ih => exact (hf a).bind fun _ => ih

theorem keeps_foldlM {f : β → α → Eval σ β} (hf : ∀ b a, Keeps I (f b a)) (as : List α) (b : β) :
    Keeps I (as.foldlM f b) := by
  induction as generalizing b with
  | nil => exact keeps_pure _
  | cons a as ih =>
    rw [List.foldlM_cons]
    exact (hf b a).bind fun _ => ih _

theorem keeps_filterM {f : α → Eval σ Bool} (hf : ∀ a, Keeps I (f a)) (as : List α) :
    Keeps I (as.filterM f) := by
  have haux : ∀ as kept, Keeps I (List.filterAuxM f as kept) := by
    intro as
    induction as with
    | nil => exact fun kept => keeps_pure _
    | cons a as ih => exact fun kept => (hf a).bind fun _ => ih _
  exact (haux as []).bind fun _ => keeps_pure _

theorem keeps_checkDepth : Keeps I (checkDepth : Eval σ Unit) := by
  refine keeps_get_bind fun m => ?_
  split
  · exact keeps_throw _ m
  · exact keeps_pure _ m

theorem Keeps.within {x : Eval σ α} (hx : Keeps I x) (f : Frame) : Keeps I (within f x) := by
  refine keeps_checkDepth.bind fun _ => ?_
  refine (keeps_modify fun _ => by rfl).bind fun _ => hx.bind fun a => ?_
  exact (keeps_modify fun _ => by rfl).bind fun _ => keeps_pure a

theorem keeps_write (s : String) : Keeps I (write s : Eval σ Unit) :=
  keeps_modify fun m => by split <;> rfl

theorem keeps_writeDatum (d : Datum) : Keeps I (writeDatum d : Eval σ Unit) :=
  keeps_get_bind fun m => keeps_write _ m

theorem Keeps.capture {x : Eval σ Unit} (hx : Keeps I x) : Keeps I (capture x) := by
  refine keeps_get_bind fun before => ?_
  refine Keeps.bind (keeps_modify fun _ => by rfl) (fun _ => hx.bind fun _ => ?_) before
  refine keeps_get_bind fun after => ?_
  exact (keepsAt_set (by exact id)).bind fun _ => keeps_pure _

theorem Keeps.silently {x : Eval σ α} (hx : Keeps I x) : Keeps I (silently x) := by
  refine keeps_get_bind fun before => ?_
  refine Keeps.bind (keeps_modify fun _ => by rfl) (fun _ => hx.bind fun a => ?_) before
  exact (keeps_modify fun _ => by rfl).bind fun _ => keeps_pure a

theorem keeps_store (name : String) (d : Datum) : Keeps I (store name d : Eval σ Unit) :=
  keeps_modify fun m => by split <;> rfl

theorem keeps_closure : Keeps I (closure : Eval σ Nat) := by
  refine keeps_get_bind fun m => ?_
  split
  · exact keeps_pure _ m
  · exact (keepsAt_set (by exact id)).bind fun _ => keeps_pure _
  · exact keeps_pure _ m

theorem keeps_declare (params : Params) (body : List Stmt) (callsBack : Bool) :
    Keeps I (declare params body callsBack : Eval σ Datum) := by
  refine keeps_closure.bind fun _ => keeps_get_bind fun _ => ?_
  exact (keepsAt_set (by exact id)).bind fun _ => keeps_pure _

mutual

theorem keeps_assign (target : Target) (d : Datum) : Keeps I (assign target d : Eval σ Unit) := by
  cases target with
  | name x =>
    rw [assign]
    exact keeps_store x d
  | part =>
    rw [assign]
    exact keeps_throw _
  | list ts =>
    have hitems : Keeps I (do
        let items ← (d.items : Except TemplateFault (List Datum))
        if items.length = ts.length then assignAll ts items
          else throw .cannotUnpack : Eval σ Unit) := by
      refine (keeps_lift _).bind fun items => ?_
      split
      · exact keeps_assignAll ts items
      · exact keeps_throw _
    unfold assign
    split
    · exact hitems
    · exact hitems
    · exact hitems
    · exact keeps_throw _

theorem keeps_assignAll (ts : List Target) (ds : List Datum) :
    Keeps I (assignAll ts ds : Eval σ Unit) := by
  cases ts with
  | nil =>
    rw [assignAll]
    · exact keeps_pure _
    · simp
  | cons t ts =>
    cases ds with
    | nil =>
      rw [assignAll]
      · exact keeps_pure _
      · simp
    | cons d ds =>
      rw [assignAll]
      exact (keeps_assign t d).bind fun _ => keeps_assignAll ts ds

end

/-- A function of the host keeps what the host keeps, and the others do not touch its state. -/
theorem keeps_callFunction (hh : h.Keeps I) (name : String) (args : Args) :
    Keeps I (callFunction h name args) := by
  unfold callFunction
  split
  · rename_i f hf
    refine keeps_get_bind fun m => ?_
    exact (keepsAt_set (hh.function name f args m.host hf)).bind fun _ => keeps_lift _
  · split
    · exact keeps_lift _
    · dsimp only
      split
      · exact (keeps_pure _).bind fun _ => keeps_pure _
      · exact (keeps_pure _).bind fun _ => keeps_pure _
      · exact (keeps_throw _).bind fun _ => keeps_pure _
      · exact (keeps_throw _).bind fun _ => keeps_pure _
    · exact keeps_throw _

theorem keeps_applyFilter (name : String) (d : Datum) (args : Args) :
    Keeps I (applyFilter h name d args) := by
  unfold applyFilter
  split
  · exact keeps_get_bind fun m => keeps_lift _ m
  · exact keeps_throw _

theorem keeps_applyTest (name : String) (d : Datum) (args : Args) :
    Keeps I (applyTest name d args : Eval σ Datum) := by
  unfold applyTest
  split
  · exact (keeps_lift _).bind fun _ => keeps_pure _
  · exact keeps_throw _

theorem keeps_load (hh : h.Keeps I) (name : String) : Keeps I (load h name) := by
  refine keeps_get_bind fun m => ?_
  exact (keepsAt_set (hh.template name m.host)).bind fun _ => keeps_lift _

theorem keeps_extend (hh : h.Keeps I) (d : Datum) : Keeps I (extend h d) := by
  unfold extend
  split
  · refine keeps_get_bind fun m => ?_
    split
    · exact keeps_throw _ m
    · exact Keeps.bind (keeps_load hh _) (fun t => keeps_modify fun _ => by rfl) m
  · exact keeps_throw _

end Machine
end DocSite.Template
