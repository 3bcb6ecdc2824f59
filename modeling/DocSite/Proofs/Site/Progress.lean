import DocSite.Proofs.Site.Written
import Mathlib.Data.List.Induction

namespace DocSite

inductive ProgressStep where
  /-- So many units are to be counted. -/
  | start (total : Nat)
  /-- One more unit is done. -/
  | increment
  /-- The run is over. -/
  | finish
  deriving DecidableEq, Repr

def StartFree (steps : List ProgressStep) : Prop := ∀ total, .start total ∉ steps

def unitsIn (steps : List ProgressStep) : Nat := steps.count .increment

def updatesIn (calls : List ProgressCall) : List ProgressCall := calls.filter (· != .finish)

/-- What an observer hears from the announcement of `n` units on, while a counter takes steps
without another start: of each unit that is done, as long as there are any, and of each end right
where it comes. -/
structure Tells (n : Nat) (steps : List ProgressStep) (calls : List ProgressCall) : Prop where
  updates_eq : updatesIn calls = Run.updates n (min (unitsIn steps) n)
  count_eq : calls.count .finish = steps.count .finish
  /-- What is heard before an end is what the steps before it make. -/
  in_place : ∀ before after, steps = before ++ .finish :: after → ∃ said later,
    calls = said ++ .finish :: later ∧
    updatesIn said = Run.updates n (min (unitsIn before) n) ∧
    said.count .finish = before.count .finish

namespace Progress

variable {p q : Progress} {n : Nat}

def take (p : Progress) : ProgressStep → Progress × List ProgressCall
  | .start total => p.start total
  | .increment => p.increment
  | .finish => (p, p.finish)

def counted (p : Progress) : List ProgressStep → Progress
  | [] => p
  | s :: steps => (p.take s).1.counted steps

def heard (p : Progress) : List ProgressStep → List ProgressCall
  | [] => []
  | s :: steps => (p.take s).2 ++ (p.take s).1.heard steps

theorem counted_append (p : Progress) (before after : List ProgressStep) :
    p.counted (before ++ after) = (p.counted before).counted after := by
  induction before generalizing p with
  | nil => rfl
  | cons s before ih => exact ih (p.take s).1

theorem heard_append (p : Progress) (before after : List ProgressStep) :
    p.heard (before ++ after) = p.heard before ++ (p.counted before).heard after := by
  induction before generalizing p with
  | nil => rfl
  | cons s before ih => rw [List.cons_append, heard, ih, heard, counted, List.append_assoc]

theorem increment_of_le (h : p.total ≤ p.current) : p.increment = (p, []) := by
  rw [increment, dif_neg (Nat.not_lt.2 h)]

theorem increment_total (p : Progress) : p.increment.1.total = p.total := by
  rcases Nat.lt_or_ge p.current p.total with h | h
  · rw [increment_of_lt h]
  · rw [increment_of_le h]

theorem increment_current (p : Progress) :
    p.increment.1.current = min (p.current + 1) p.total := by
  have hle := p.current_le_total
  rcases Nat.lt_or_ge p.current p.total with h | h
  · rw [increment_of_lt h]
    exact (Nat.min_eq_left h).symm
  · rw [increment_of_le h]
    show p.current = min (p.current + 1) p.total
    omega

theorem increment_calls (h : p.current < p.total) :
    p.increment.2 = p.report (.update (p.current + 1) p.total) := by
  rw [increment_of_lt h]

theorem take_observed (p : Progress) (s : ProgressStep) : (p.take s).1.observed = p.observed := by
  cases s with
  | start total => rfl
  | increment =>
    rcases Nat.lt_or_ge p.current p.total with h | h
    · rw [take, increment_of_lt h]
    · rw [take, increment_of_le h]
  | finish => rfl

theorem counted_observed (p : Progress) (steps : List ProgressStep) :
    (p.counted steps).observed = p.observed := by
  induction steps generalizing p with
  | nil => rfl
  | cons s steps ih => exact (ih (p.take s).1).trans (take_observed p s)

theorem take_start (h : p.observed = q.observed) : p.take (.start n) = q.take (.start n) := by
  simp only [take, start, report, h]

theorem counted_append_start (p : Progress) (before after : List ProgressStep) :
    p.counted (before ++ .start n :: after) = p.counted (.start n :: after) := by
  rw [counted_append, counted, take_start (counted_observed p before), counted]

theorem heard_append_start (p : Progress) (before after : List ProgressStep) :
    p.heard (before ++ .start n :: after) = p.heard before ++ p.heard (.start n :: after) := by
  rw [heard_append, heard, take_start (counted_observed p before), heard]

end Progress

variable {n : Nat} {s : ProgressStep} {steps before after : List ProgressStep}
variable {calls more said later : List ProgressCall}

theorem updatesIn_append (calls more : List ProgressCall) :
    updatesIn (calls ++ more) = updatesIn calls ++ updatesIn more := List.filter_append ..

theorem updatesIn_eq_self (h : .finish ∉ calls) : updatesIn calls = calls := by
  refine List.filter_eq_self.2 fun call hcall => bne_iff_ne.2 ?_
  rintro rfl
  exact h hcall

@[simp] theorem unitsIn_concat_increment (steps : List ProgressStep) :
    unitsIn (steps ++ [.increment]) = unitsIn steps + 1 := List.count_append

@[simp] theorem unitsIn_concat_finish (steps : List ProgressStep) :
    unitsIn (steps ++ [.finish]) = unitsIn steps := List.count_append

/-- A finish before a last step that is none is before the steps that go ahead of it. -/
theorem exists_of_concat_eq (hs : s ≠ .finish) (h : steps ++ [s] = before ++ .finish :: after) :
    ∃ between, after = between ++ [s] ∧ steps = before ++ .finish :: between := by
  rcases List.eq_nil_or_concat after with rfl | ⟨between, last, rfl⟩
  · exact absurd (List.append_inj' h rfl).2 (by simpa using hs)
  · rw [List.concat_eq_append, ← List.cons_append, ← List.append_assoc] at h
    obtain ⟨hsteps, hlast⟩ := List.append_inj' h rfl
    exact ⟨between, by rw [hlast, List.concat_eq_append], hsteps⟩

theorem tells_nil (n : Nat) : Tells n [] [.update 0 n] where
  updates_eq := by simp [updatesIn, unitsIn, Run.updates]
  count_eq := rfl
  in_place := by simp

theorem Tells.finish (h : Tells n steps calls) :
    Tells n (steps ++ [.finish]) (calls ++ [.finish]) where
  updates_eq := by
    rw [updatesIn_append, h.updates_eq, unitsIn_concat_finish]
    exact List.append_nil _
  count_eq := by rw [List.count_append, List.count_append, h.count_eq]; rfl
  in_place := by
    intro before after heq
    rcases List.eq_nil_or_concat after with rfl | ⟨between, last, rfl⟩
    · -- the end that is heard last
      obtain ⟨rfl, -⟩ := List.append_inj' heq rfl
      exact ⟨calls, [], rfl, h.updates_eq, h.count_eq⟩
    · rw [List.concat_eq_append, ← List.cons_append, ← List.append_assoc] at heq
      obtain ⟨rfl, -⟩ := List.append_inj' heq rfl
      obtain ⟨said, later, rfl, hsaid⟩ := h.in_place before between rfl
      exact ⟨said, later ++ [.finish], by simp, hsaid⟩

/-- A step that is no end moves no end that was heard. -/
theorem Tells.concat (h : Tells n steps calls) (hs : s ≠ .finish) (hmore : .finish ∉ more)
    (hupdates : Run.updates n (min (unitsIn steps) n) ++ more =
      Run.updates n (min (unitsIn (steps ++ [s])) n)) :
    Tells n (steps ++ [s]) (calls ++ more) where
  updates_eq := by rw [updatesIn_append, h.updates_eq, updatesIn_eq_self hmore, hupdates]
  count_eq := by
    have hlast : [s].count .finish = 0 := List.count_eq_zero.2 (by simpa using hs.symm)
    rw [List.count_append, List.count_append, h.count_eq, List.count_eq_zero.2 hmore, hlast]
  in_place := by
    intro before after heq
    obtain ⟨between, rfl, hsteps⟩ := exists_of_concat_eq hs heq
    obtain ⟨said, later, rfl, hsaid⟩ := h.in_place before between hsteps
    exact ⟨said, later ++ more, by simp, hsaid⟩

/-- An item with fewer of its kind before it than another one stands before that one. -/
theorem exists_between {α : Type} [DecidableEq α] {a : α} {xs xs' ys ys' : List α}
    (h : xs ++ a :: ys = xs' ++ a :: ys') (hcount : xs.count a < xs'.count a) :
    ∃ between, xs' = xs ++ a :: between := by
  rcases List.append_eq_append_iff.1 h with ⟨zs, rfl, hzs⟩ | ⟨zs, rfl, -⟩
  · cases zs with
    | nil => simp at hcount
    | cons b zs =>
      obtain ⟨rfl, -⟩ := List.cons.inj hzs
      exact ⟨zs, rfl⟩
  · rw [List.count_append] at hcount
    omega

/-- What is told before an end is what is told for the steps before it. -/
theorem Tells.of_append (h : Tells n (before ++ .finish :: after) calls) :
    ∃ said later, calls = said ++ .finish :: later ∧ Tells n before said := by
  obtain ⟨said, later, rfl, hupdates, hcount⟩ := h.in_place before after rfl
  refine ⟨said, later, rfl, hupdates, hcount, ?_⟩
  rintro first between rfl
  obtain ⟨said', later', hcalls, hsaid'⟩ := h.in_place first (between ++ .finish :: after) (by simp)
  -- the earlier end has fewer ends before it
  have hfewer : said'.count .finish < said.count .finish := by
    rw [hcount, hsaid'.2, List.count_append, List.count_cons_self]
    omega
  obtain ⟨later'', hsaid⟩ := exists_between hcalls.symm hfewer
  exact ⟨said', later'', hsaid, hsaid'⟩

theorem exists_last_finish (h : .finish ∈ steps) :
    ∃ before after, steps = before ++ .finish :: after ∧ .finish ∉ after := by
  obtain ⟨after, before, hsteps, hafter⟩ := List.eq_append_cons_of_mem (List.mem_reverse.2 h)
  refine ⟨before.reverse, after.reverse, ?_, by simpa using hafter⟩
  rw [← List.reverse_reverse steps, hsteps]
  simp

theorem Tells.not_mem (h : Tells n steps calls) (hsteps : .finish ∉ steps) : .finish ∉ calls := by
  rw [← List.count_eq_zero, h.count_eq]
  exact List.count_eq_zero.2 hsteps

theorem Tells.later_not_mem (h : Tells n (before ++ .finish :: after) (said ++ .finish :: later))
    (hsaid : Tells n before said) (hafter : .finish ∉ after) : .finish ∉ later := by
  have hcount := h.count_eq
  rw [List.count_append, List.count_cons_self, List.count_append, List.count_cons_self,
    hsaid.count_eq, List.count_eq_zero.2 hafter] at hcount
  exact List.count_eq_zero.1 (by omega)

theorem Tells.unique {calls' : List ProgressCall} (h : Tells n steps calls)
    (h' : Tells n steps calls') : calls = calls' := by
  induction hends : steps.count .finish generalizing steps calls calls' with
  | zero =>
    have hno := List.count_eq_zero.1 hends
    rw [← updatesIn_eq_self (h.not_mem hno), ← updatesIn_eq_self (h'.not_mem hno), h.updates_eq,
      h'.updates_eq]
  | succ ends ih =>
    have hmem : .finish ∈ steps := List.count_pos_iff.1 (by omega)
    obtain ⟨before, after, rfl, hafter⟩ := exists_last_finish hmem
    obtain ⟨said, later, rfl, hsaid⟩ := h.of_append
    obtain ⟨said', later', rfl, hsaid'⟩ := h'.of_append
    have hbefore : before.count .finish = ends := by
      rw [List.count_append, List.count_cons_self, List.count_eq_zero.2 hafter] at hends
      omega
    obtain rfl := ih hsaid hsaid' hbefore
    -- after the last end there are updates only, and both have the same ones
    have hupdates := h.updates_eq.trans h'.updates_eq.symm
    rw [updatesIn_append, updatesIn_append] at hupdates
    have hlater : updatesIn later = updatesIn later' := List.append_cancel_left hupdates
    rw [updatesIn_eq_self (h.later_not_mem hsaid hafter),
      updatesIn_eq_self (h'.later_not_mem hsaid' hafter)] at hlater
    rw [hlater]

namespace Progress

variable {p : Progress}

/-- What a counter has counted and told since it was started. -/
structure Since (p : Progress) (n : Nat) (steps : List ProgressStep) : Prop where
  total_eq : (p.counted (.start n :: steps)).total = n
  current_eq : (p.counted (.start n :: steps)).current = min (unitsIn steps) n
  tells : p.observed = true → Tells n steps (p.heard (.start n :: steps))

theorem since_nil (p : Progress) (n : Nat) : Since p n [] where
  total_eq := rfl
  current_eq := (Nat.zero_min n).symm
  tells hobs := by
    have hcalls : p.heard [.start n] = [.update 0 n] := by
      simp [heard, take, start, report, hobs]
    rw [hcalls]
    exact tells_nil n

theorem counted_concat (p : Progress) (steps : List ProgressStep) (s : ProgressStep) :
    p.counted (steps ++ [s]) = ((p.counted steps).take s).1 := by
  rw [counted_append, counted, counted]

theorem heard_concat (p : Progress) (steps : List ProgressStep) (s : ProgressStep) :
    p.heard (steps ++ [s]) = p.heard steps ++ ((p.counted steps).take s).2 := by
  rw [heard_append, heard, heard, List.append_nil]

theorem Since.finish (h : Since p n steps) : Since p n (steps ++ [.finish]) := by
  have hcounted : p.counted (.start n :: (steps ++ [.finish])) = p.counted (.start n :: steps) :=
    counted_concat p (.start n :: steps) .finish
  have hheard := heard_concat p (.start n :: steps) .finish
  refine ⟨hcounted ▸ h.total_eq, ?_, fun hobs => ?_⟩
  · rw [hcounted, unitsIn_concat_finish, h.current_eq]
  · have hcall : (p.counted (.start n :: steps)).finish = [.finish] := by
      rw [Progress.finish, report, counted_observed, hobs, if_pos rfl]
    rw [take, hcall] at hheard
    exact hheard ▸ (h.tells hobs).finish

/-- A unit is counted and told as long as not all of the announced ones are. -/
theorem Since.increment (h : Since p n steps) : Since p n (steps ++ [.increment]) := by
  have hcounted : p.counted (.start n :: (steps ++ [.increment])) =
      (p.counted (.start n :: steps)).increment.1 :=
    counted_concat p (.start n :: steps) .increment
  have hheard : p.heard (.start n :: (steps ++ [.increment])) = p.heard (.start n :: steps) ++
      (p.counted (.start n :: steps)).increment.2 :=
    heard_concat p (.start n :: steps) .increment
  refine ⟨?_, ?_, fun hobs => ?_⟩
  · rw [hcounted, increment_total, h.total_eq]
  · rw [hcounted, increment_current, h.total_eq, h.current_eq, unitsIn_concat_increment]
    omega
  · rw [hheard]
    have hcurrent := h.current_eq
    have htotal := h.total_eq
    rcases Nat.lt_or_ge (unitsIn steps) n with hlt | hle
    · have hcall : (p.counted (.start n :: steps)).increment.2 = [.update (unitsIn steps + 1) n] := by
        rw [increment_calls (by omega), report, counted_observed, hobs, if_pos rfl, htotal,
          hcurrent, Nat.min_eq_left (Nat.le_of_lt hlt)]
      refine hcall ▸ (h.tells hobs).concat (by decide) (by simp) ?_
      rw [unitsIn_concat_increment, Nat.min_eq_left (Nat.le_of_lt hlt), Nat.min_eq_left hlt,
        Run.updates_succ]
    · rw [increment_of_le (by omega)]
      refine (h.tells hobs).concat (by decide) (by simp) ?_
      rw [unitsIn_concat_increment, Nat.min_eq_right hle, Nat.min_eq_right (by omega),
        List.append_nil]

theorem since_of_startFree (p : Progress) (n : Nat) (h : StartFree steps) : Since p n steps := by
  induction steps using List.reverseRecOn with
  | nil => exact since_nil p n
  | append_singleton steps s ih =>
    have hsteps : StartFree steps := fun total hin => h total (List.mem_append_left _ hin)
    cases s with
    | start total => exact absurd (List.mem_append_right _ (.head _)) (h total)
    | increment => exact (ih hsteps).increment
    | finish => exact (ih hsteps).finish

theorem exists_last_start (steps : List ProgressStep) : StartFree steps ∨
    ∃ before n after, steps = before ++ .start n :: after ∧ StartFree after := by
  induction steps with
  | nil => exact .inl fun total => List.not_mem_nil
  | cons s steps ih =>
    rcases ih with hfree | ⟨before, n, after, rfl, hafter⟩
    · cases s with
      | start n => exact .inr ⟨[], n, steps, rfl, hfree⟩
      | increment | finish =>
        refine .inl fun total hin => hfree total ?_
        simpa using hin
    · exact .inr ⟨s :: before, n, after, rfl, hafter⟩

theorem counted_of_startFree (h : StartFree steps) (htotal : p.total = 0) :
    p.counted steps = p := by
  induction steps with
  | nil => rfl
  | cons s steps ih =>
    have hsteps : StartFree steps := fun total hin => h total (.tail _ hin)
    cases s with
    | start total => exact absurd (.head _) (h total)
    | finish => exact ih hsteps
    | increment =>
      rw [counted, take, increment_of_le (by omega)]
      exact ih hsteps

theorem heard_of_startFree (h : StartFree steps) (htotal : p.total = 0)
    (hobs : p.observed = true) :
    p.heard steps = List.replicate (steps.count .finish) .finish := by
  induction steps with
  | nil => rfl
  | cons s steps ih =>
    have hsteps : StartFree steps := fun total hin => h total (.tail _ hin)
    cases s with
    | start total => exact absurd (.head _) (h total)
    | finish =>
      rw [heard, take, ih hsteps, finish, report, hobs, List.count_cons_self,
        List.replicate_succ]
      rfl
    | increment =>
      rw [heard, take, increment_of_le (by omega), ih hsteps, List.count_cons_of_ne (by decide)]
      rfl

theorem heard_of_not_observed (p : Progress) (hobs : p.observed = false)
    (steps : List ProgressStep) : p.heard steps = [] := by
  have hreport : ∀ q : Progress, q.observed = false → ∀ call, q.report call = [] := by
    intro q hq call
    rw [report, hq]
    rfl
  induction steps generalizing p with
  | nil => rfl
  | cons s steps ih =>
    have hcalls : (p.take s).2 = [] := by
      cases s with
      | start total => exact hreport _ hobs _
      | finish => exact hreport _ hobs _
      | increment =>
        rcases Nat.lt_or_ge p.current p.total with hlt | hle
        · rw [take, increment_calls hlt, hreport p hobs]
        · rw [take, increment_of_le hle]
    rw [heard, hcalls, ih _ ((take_observed p s).trans hobs), List.append_nil]

/-- Since the last start, each unit up to the announced number was counted. -/
theorem counted_eq_of_startFree (p : Progress) (before : List ProgressStep) (n : Nat)
    (h : StartFree after) :
    (p.counted (before ++ .start n :: after)).total = n ∧
    (p.counted (before ++ .start n :: after)).current = min (unitsIn after) n := by
  have hsince := since_of_startFree p n h
  rw [counted_append_start]
  exact ⟨hsince.total_eq, hsince.current_eq⟩

theorem eq_heard_iff (h : StartFree after) :
    calls = (fresh true).heard (.start n :: after) ↔ Tells n after calls := by
  have htells := (since_of_startFree (fresh true) n h).tells rfl
  constructor
  · rintro rfl
    exact htells
  · intro hcalls
    exact hcalls.unique htells

/-- Whatever a counter is told, it never counts more than was announced last, and nothing before the
first start. After a start it counts each unit up to the announced number, whatever was before. What
its observer hears is cut by the starts; between two of them it hears exactly of the start, of each
unit that is counted and of each end where it comes. The counter does the same without an observer,
to whom no calls are made then. -/
theorem calls_of_steps :
    (∀ observed steps,
      ((fresh observed).counted steps).current ≤ ((fresh observed).counted steps).total) ∧
    (∀ observed steps, StartFree steps → (fresh observed).counted steps = fresh observed) ∧
    (∀ observed before n after, StartFree after →
      ((fresh observed).counted (before ++ .start n :: after)).total = n ∧
      ((fresh observed).counted (before ++ .start n :: after)).current = min (unitsIn after) n) ∧
    (∀ steps, StartFree steps →
      (fresh true).heard steps = List.replicate (steps.count .finish) .finish) ∧
    (∀ before n after, (fresh true).heard (before ++ .start n :: after) =
      (fresh true).heard before ++ (fresh true).heard (.start n :: after)) ∧
    (∀ n after calls, StartFree after →
      (calls = (fresh true).heard (.start n :: after) ↔ Tells n after calls)) ∧
    ∀ steps, ((fresh false).counted steps).total = ((fresh true).counted steps).total ∧
      ((fresh false).counted steps).current = ((fresh true).counted steps).current ∧
      (fresh false).heard steps = [] := by
  refine ⟨?_, ?_, ?_, ?_, ?_, ?_, ?_⟩
  · intro observed steps
    exact ((fresh observed).counted steps).current_le_total
  · intro observed steps h
    exact counted_of_startFree h rfl
  · intro observed before n after h
    exact counted_eq_of_startFree (fresh observed) before n h
  · intro steps h
    exact heard_of_startFree h rfl rfl
  · intro before n after
    exact heard_append_start (fresh true) before after
  · intro n after calls h
    exact eq_heard_iff h
  · intro steps
    have hcounts : ((fresh false).counted steps).total = ((fresh true).counted steps).total ∧
        ((fresh false).counted steps).current = ((fresh true).counted steps).current := by
      rcases exists_last_start steps with h | ⟨before, n, after, rfl, h⟩
      · rw [counted_of_startFree h rfl, counted_of_startFree h rfl]
        exact ⟨rfl, rfl⟩
      · obtain ⟨htotal, hcurrent⟩ := counted_eq_of_startFree (fresh true) before n h
        obtain ⟨htotal', hcurrent'⟩ := counted_eq_of_startFree (fresh false) before n h
        exact ⟨htotal'.trans htotal.symm, hcurrent'.trans hcurrent.symm⟩
    exact ⟨hcounts.1, hcounts.2, heard_of_not_observed (fresh false) rfl steps⟩

/-- Units before the first start and beyond the announced number, and an end between two starts. -/
example : (fresh true).heard [.increment, .start 1, .finish, .increment, .increment, .start 0] =
    [.update 0 1, .finish, .update 1 1, .update 0 0] := by decide

end Progress
end DocSite
