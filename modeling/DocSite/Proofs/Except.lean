
namespace DocSite

variable {ε ε' α β : Type} {x : Except ε α} {a : α}

theorem bind_eq_ok {f : α → Except ε β} {b : β} :
    (x >>= f) = .ok b ↔ ∃ a, x = .ok a ∧ f a = .ok b := by
  cases x with
  | error cause => simp [bind, Except.bind]
  | ok a => simp [bind, Except.bind]

theorem bind_eq_error {f : α → Except ε β} {cause : ε} :
    (x >>= f) = .error cause ↔ x = .error cause ∨ ∃ a, x = .ok a ∧ f a = .error cause := by
  cases x with
  | error e => simp [bind, Except.bind]
  | ok a => simp [bind, Except.bind]

theorem eq_of_eq_ok {b : α} (h : x = .ok a) (h' : x = .ok b) : a = b :=
  Except.ok.inj (h.symm.trans h')

theorem mapError_eq_ok {f : ε → ε'} : x.mapError f = .ok a ↔ x = .ok a := by
  cases x with
  | error cause => exact ⟨nofun, nofun⟩
  | ok b =>
    have hsame : (Except.ok b : Except ε α).mapError f = .ok b := rfl
    rw [hsame, Except.ok.injEq, Except.ok.injEq]

theorem toOption_eq_some_iff : x.toOption = some a ↔ x = .ok a := by
  cases x <;> simp [Except.toOption]

/-- Causes can be compared where results cannot. -/
theorem eq_error_of_beq [BEq ε] [LawfulBEq ε] {cause : ε}
    (h : (match x with | .error e => e == cause | .ok _ => false) = true) : x = .error cause := by
  cases x with
  | error e => rw [eq_of_beq h]
  | ok a => simp at h

/-- A list that is computed item by item holds just what the items give, in order. -/
theorem map_eq_of_mapM_eq_ok {f : α → Except ε β} {items : List α} {results : List β}
    (h : items.mapM f = .ok results) : items.map f = results.map .ok := by
  induction items generalizing results with
  | nil =>
    obtain rfl := Except.ok.inj h
    rfl
  | cons a items ih =>
    rw [List.mapM_cons] at h
    obtain ⟨b, hb, h⟩ := bind_eq_ok.1 h
    obtain ⟨rest, hrest, h⟩ := bind_eq_ok.1 h
    obtain rfl := Except.ok.inj h
    rw [List.map_cons, hb, ih hrest, List.map_cons]

theorem exists_of_mapM_eq_ok {f : α → Except ε β} {items : List α} {results : List β}
    (h : items.mapM f = .ok results) {b : β} (hb : b ∈ results) : ∃ a ∈ items, f a = .ok b := by
  have hmem : Except.ok b ∈ items.map f := by
    rw [map_eq_of_mapM_eq_ok h]
    exact List.mem_map_of_mem hb
  exact List.mem_map.1 hmem

theorem exists_mapM_eq_ok {f : α → Except ε β} (h : ∀ a, ∃ b, f a = .ok b) (items : List α) :
    ∃ results, items.mapM f = .ok results := by
  induction items with
  | nil => exact ⟨[], rfl⟩
  | cons a items ih =>
    obtain ⟨b, hb⟩ := h a
    obtain ⟨rest, hrest⟩ := ih
    exact ⟨b :: rest, by rw [List.mapM_cons, hb, hrest]; rfl⟩

theorem mapM_cons_eq_error {f : α → Except ε β} {cause : ε} {items : List α}
    (h : f a = .error cause) : (a :: items).mapM f = .error cause := by
  rw [List.mapM_cons, h]
  rfl

/-- If all items that fail have one cause, this is the cause. -/
theorem mapM_eq_error_of_mem {f : α → Except ε β} {cause : ε} {items : List α}
    (hall : ∀ b ∈ items, (∃ r, f b = .ok r) ∨ f b = .error cause) (ha : a ∈ items)
    (hfail : f a = .error cause) : items.mapM f = .error cause := by
  induction items with
  | nil => simp at ha
  | cons b items ih =>
    rcases hall b (.head _) with ⟨r, hb⟩ | hb
    · have hrest : a ∈ items := by
        rcases List.mem_cons.1 ha with rfl | ha
        · simp [hb] at hfail
        · exact ha
      rw [List.mapM_cons, hb, ih (fun c hc => hall c (.tail _ hc)) hrest]
      rfl
    · exact mapM_cons_eq_error hb

/-- The first item that fails gives the cause. -/
theorem mapM_eq_error_iff {f : α → Except ε β} {cause : ε} {items : List α} :
    items.mapM f = .error cause ↔ ∃ before a after, items = before ++ a :: after ∧
      (∀ b ∈ before, ∃ r, f b = .ok r) ∧ f a = .error cause := by
  induction items with
  | nil =>
    refine ⟨fun h => ?_, ?_⟩
    · simp [pure, Except.pure] at h
    · rintro ⟨before, a, after, h, -⟩
      simp at h
  | cons c items ih =>
    cases hc : f c with
    | error e =>
      rw [mapM_cons_eq_error hc]
      constructor
      · intro h
        exact ⟨[], c, items, rfl, by simp, hc.trans (congrArg _ (Except.error.inj h))⟩
      · rintro ⟨before, a, after, h, hbefore, ha⟩
        cases before with
        | nil =>
          obtain ⟨rfl, -⟩ := List.cons.inj h
          exact congrArg _ (Except.error.inj (hc.symm.trans ha))
        | cons d before =>
          obtain ⟨rfl, -⟩ := List.cons.inj h
          obtain ⟨r, hr⟩ := hbefore c (.head _)
          simp [hc] at hr
    | ok b =>
      have hrest : (c :: items).mapM f = .error cause ↔ items.mapM f = .error cause := by
        rw [List.mapM_cons, hc]
        cases items.mapM f <;> simp [bind, Except.bind, pure, Except.pure]
      rw [hrest, ih]
      constructor
      · rintro ⟨before, a, after, rfl, hbefore, ha⟩
        exact ⟨c :: before, a, after, rfl, List.forall_mem_cons.2 ⟨⟨b, hc⟩, hbefore⟩, ha⟩
      · rintro ⟨before, a, after, h, hbefore, ha⟩
        cases before with
        | nil =>
          obtain ⟨rfl, -⟩ := List.cons.inj h
          simp [hc] at ha
        | cons d before =>
          obtain ⟨rfl, rfl⟩ := List.cons.inj h
          exact ⟨before, a, after, rfl, fun b hb => hbefore b (.tail _ hb), ha⟩

theorem forM_eq_ok {items : List α} {check : α → Except ε Unit} (h : items.forM check = .ok ())
    (ha : a ∈ items) : check a = .ok () := by
  induction items with
  | nil => simp at ha
  | cons b items ih =>
    rw [List.forM_eq_forM, List.forM_cons] at h
    obtain ⟨u, hb, hrest⟩ := bind_eq_ok.1 h
    rcases List.mem_cons.1 ha with rfl | ha
    · exact hb
    · exact ih hrest ha

theorem exists_of_forM_eq_error {items : List α} {check : α → Except ε Unit} {cause : ε}
    (h : items.forM check = .error cause) : ∃ a ∈ items, check a = .error cause := by
  induction items with
  | nil => simp [pure, Except.pure] at h
  | cons b items ih =>
    rw [List.forM_eq_forM, List.forM_cons] at h
    cases hb : check b with
    | error e =>
      rw [hb] at h
      exact ⟨b, .head _, hb.trans h⟩
    | ok =>
      rw [hb] at h
      obtain ⟨a, ha, hcause⟩ := ih h
      exact ⟨a, .tail _ ha, hcause⟩

end DocSite
