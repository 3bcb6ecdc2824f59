import DocSite.Proofs.Except
import DocSite.Proofs.Site.Line

namespace DocSite

variable {m : Model} {i : Index} {all : List Decl} {d p top : Decl} {chain : List Decl}
variable {cycle : ParentCycle}

/-- A type of the model is the parent of another. -/
def Model.IsParent (m : Model) (p d : Decl) : Prop := p ∈ m.types ∧ d.parent = some p.name

/-- No type is among its own ancestors. -/
def Model.Acyclic (m : Model) : Prop := ∀ d, ¬Relation.TransGen m.IsParent d d

/-- The parents of a type that the model knows go on forever. -/
def Model.Endless (m : Model) (d : Decl) : Prop :=
  ∃ line : Nat → Decl, line 0 = d ∧ ∀ n, m.IsParent (line (n + 1)) (line n)

namespace Index

theorem climbEnds_of_mem (hd : d ∈ i.types) :
    i.ClimbEnds [d] (i.climb (i.types.length + 1) [d]) :=
  climbEnds_climb (by simpa using hd) (by simp) (by rw [List.length_singleton]; omega)

theorem ancestry_of_climbEnds_some (hd : d ∈ i.types) (h : i.ClimbEnds [d] (some chain)) :
    i.ancestry d = .ok chain := by
  rw [ancestry, (climbEnds_of_mem hd).unique h]

/-- A type of which the climb goes round is named in the error. -/
theorem ancestry_of_climbEnds_none (hd : d ∈ i.types) (h : i.ClimbEnds [d] none) :
    i.ancestry d = .error ⟨d.name⟩ := by
  rw [ancestry, (climbEnds_of_mem hd).unique h]

theorem line_of_climbEnds (h : i.ClimbEnds [d] (some chain)) : i.Line d chain := by
  obtain ⟨line, hline, rfl⟩ := h.exists_line
  rwa [List.append_nil]

theorem climbEnds_of_line (hd : d ∈ (ofTypes all).types) (h : (ofTypes all).Line d chain) :
    (ofTypes all).ClimbEnds [d] (some chain) := by
  have hnames := h.names_nodup hd
  rw [← List.append_nil chain] at hnames ⊢
  exact h.climbEnds hnames

/-- The chain of ancestors of a type is its line of parents. -/
theorem ancestry_eq_ok_iff (hd : d ∈ (ofTypes all).types) :
    (ofTypes all).ancestry d = .ok chain ↔ (ofTypes all).Line d chain := by
  constructor
  · intro hok
    cases hends : (ofTypes all).climb ((ofTypes all).types.length + 1) [d] with
    | none => simp [ancestry, hends] at hok
    | some above =>
      have hclimb := climbEnds_of_mem hd
      rw [hends] at hclimb
      obtain rfl := eq_of_eq_ok (ancestry_of_climbEnds_some hd hclimb) hok
      exact line_of_climbEnds hclimb
  · exact fun hline => ancestry_of_climbEnds_some hd (climbEnds_of_line hd hline)

/-- A type without a line of parents has no chain of ancestors, and is named in the error. -/
theorem ancestry_eq_error_iff (hd : d ∈ (ofTypes all).types) :
    (ofTypes all).ancestry d = .error cycle ↔
      cycle = ⟨d.name⟩ ∧ ¬∃ line, (ofTypes all).Line d line := by
  cases hends : (ofTypes all).ancestry d with
  | ok chain =>
    have hline := (ancestry_eq_ok_iff hd).1 hends
    simp only [reduceCtorEq, false_iff, not_and, not_not]
    exact fun _ => ⟨chain, hline⟩
  | error other =>
    have hnone : ¬∃ line, (ofTypes all).Line d line := by
      rintro ⟨line, hline⟩
      rw [(ancestry_eq_ok_iff hd).2 hline] at hends
      contradiction
    have hother : other = ⟨d.name⟩ := by
      unfold ancestry at hends
      split at hends
      · contradiction
      · exact (Except.error.inj hends).symm
    rw [Except.error.injEq, hother, and_iff_left hnone]
    exact eq_comm

/-- What the chain of ancestors of a type is like. -/
structure Ancestors (i : Index) (d : Decl) (chain : List Decl) : Prop where
  /-- It ends with the type. -/
  last : chain.getLast? = some d
  /-- It holds no type twice. -/
  names_nodup : (chain.map Decl.name).Nodup
  /-- It begins with a type that has no parent in the index. -/
  top : ∀ top, chain.head? = some top → i.parent? top = none
  /-- Of two neighbours the first is the parent of the second. -/
  neighbours : chain.IsChain fun p c => c.parent = some p.name ∧ c ∈ i.subclasses p
  /-- It is the chain of the parent with the type after it. -/
  above : ∀ p, i.parent? d = some p → ∃ above, i.ancestry p = .ok above ∧ chain = above ++ [d]

theorem ancestors_of_line (hd : d ∈ (ofTypes all).types) (h : (ofTypes all).Line d chain) :
    (ofTypes all).Ancestors d chain := by
  refine ⟨h.getLast?, h.names_nodup hd, h.parent?_head, h.isChain hd, fun p hp => ?_⟩
  cases h with
  | root hnone => simp [hnone] at hp
  | child hparent habove =>
    obtain rfl := Option.some.inj (hparent.symm.trans hp)
    exact ⟨_, (ancestry_eq_ok_iff (mem_of_parent? hparent)).2 habove, rfl⟩

/-- The chain of ancestors is the chain of parents. The climb from a type ends, in one way, and that
is what comes out. There is a chain just if the known parents of the type come to one without a
known parent, and otherwise the error names the type. -/
theorem ancestry_follows_parents (all : List Decl) (hd : d ∈ (ofTypes all).types) :
    let i := ofTypes all
    (∃! result, i.ClimbEnds [d] result) ∧
    (∀ chain, i.ClimbEnds [d] (some chain) → i.ancestry d = .ok chain) ∧
    (i.ClimbEnds [d] none → i.ancestry d = .error ⟨d.name⟩) ∧
    ((∃ chain, i.ancestry d = .ok chain) ↔
      ∃ top, Relation.ReflTransGen (fun c p => i.parent? c = some p) d top ∧
        i.parent? top = none) ∧
    (∀ chain, i.ancestry d = .ok chain → i.Ancestors d chain) ∧
    ((¬∃ top, Relation.ReflTransGen (fun c p => i.parent? c = some p) d top ∧
      i.parent? top = none) → i.ancestry d = .error ⟨d.name⟩) := by
  intro i
  have hline : ∀ chain, i.ancestry d = .ok chain ↔ i.Line d chain := fun _ => ancestry_eq_ok_iff hd
  refine ⟨?_, fun _ => ancestry_of_climbEnds_some hd, ancestry_of_climbEnds_none hd, ?_, ?_, ?_⟩
  · exact ⟨_, climbEnds_of_mem hd, fun _ hother => hother.unique (climbEnds_of_mem hd)⟩
  · simp only [hline]
    exact exists_line_iff
  · exact fun chain hok => ancestors_of_line hd ((hline chain).1 hok)
  · intro hnone
    exact (ancestry_eq_error_iff hd).2 ⟨rfl, fun h => hnone (exists_line_iff.1 h)⟩

/-- A type below another, that other and one that is its own parent. -/
def family : List Decl :=
  [(Decl.builtin "A\\Child" .classType).extending "Base", Decl.builtin "Base" .classType,
    (Decl.builtin "Knot" .classType).extending "Knot"]

theorem types_family : (ofTypes family).types = family := by
  have hfirsts : firsts [] family = family := firsts_of_nodup (by decide) (by simp)
  have hsorted : sortBy Decl.name family = family := List.mergeSort_of_pairwise (by decide)
  change sortBy Decl.name (firsts [] family) = family
  rw [hfirsts, hsorted]

theorem parent?_family (d : Decl) : (ofTypes family).parent? d =
    d.parent.bind fun name => family.find? fun p => p.name == name := by
  conv_rhs => rw [← types_family]
  rfl

theorem ancestry_follows_parents_family :
    let base := Decl.builtin "Base" .classType
    let child := (Decl.builtin "A\\Child" .classType).extending "Base"
    let knot := (Decl.builtin "Knot" .classType).extending "Knot"
    child ∈ (ofTypes family).types ∧ (ofTypes family).Ancestors child [base, child] ∧
    knot ∈ (ofTypes family).types ∧ (ofTypes family).ancestry knot = .error ⟨"Knot"⟩ := by
  intro base child knot
  have hchild : child ∈ (ofTypes family).types := by
    rw [types_family]
    decide
  have hknot : knot ∈ (ofTypes family).types := by
    rw [types_family]
    decide
  have hbase : (ofTypes family).parent? child = some base := by
    rw [parent?_family]
    decide
  have hnone : (ofTypes family).parent? base = none := by
    rw [parent?_family]
    decide
  have hround : (ofTypes family).parent? knot = some knot := by
    rw [parent?_family]
    decide
  have hchain : (ofTypes family).ClimbEnds [child] (some [base, child]) :=
    .step hbase (by decide) (.top hnone)
  obtain ⟨-, hok, -, -, hancestors, -⟩ := ancestry_follows_parents family hchild
  obtain ⟨-, -, herror, -⟩ := ancestry_follows_parents family hknot
  exact ⟨hchild, hancestors _ (hok _ hchain), hknot, herror (.round hround (by decide))⟩

theorem isParent_of_parent? (h : (ofTypes m.types).parent? d = some p) : m.IsParent p d :=
  ⟨mem_of_mem_types (mem_of_parent? h), parent_eq_of_parent? h⟩

/-- Names are distinct, so the parent that the model knows is the one that the index finds. -/
theorem parent?_of_isParent (h : m.IsParent p d) : (ofTypes m.types).parent? d = some p := by
  obtain ⟨hp, hname⟩ := h
  have hmem : p ∈ (ofTypes m.types).types := (types_perm m).mem_iff.2 hp
  rw [parent?, hname, Option.bind_some]
  exact find?_eq_some_iff.2 ⟨hmem, rfl⟩

/-- The parents of a type go on forever if it has no line. -/
theorem endless_iff : m.Endless d ↔ ¬∃ line, (ofTypes m.types).Line d line := by
  constructor
  · rintro ⟨above, rfl, habove⟩ ⟨line, hline⟩
    generalize hstart : above 0 = d at hline
    induction hline generalizing above with
    | root hnone =>
      rw [← hstart, parent?_of_isParent (habove 0)] at hnone
      contradiction
    | child hparent _ ih =>
      rw [← hstart, parent?_of_isParent (habove 0)] at hparent
      exact ih (fun n => above (n + 1)) (fun n => habove (n + 1)) (Option.some.inj hparent)
  · intro hnone
    -- a type without a line has a parent, and that has none either
    let next (d : Decl) : Decl := ((ofTypes m.types).parent? d).getD d
    have hnext : ∀ d, (¬∃ line, (ofTypes m.types).Line d line) →
        m.IsParent (next d) d ∧ ¬∃ line, (ofTypes m.types).Line (next d) line := by
      intro d hnone
      cases hparent : (ofTypes m.types).parent? d with
      | none => exact absurd ⟨_, .root hparent⟩ hnone
      | some p =>
        simp only [next, hparent, Option.getD_some]
        exact ⟨isParent_of_parent? hparent, fun ⟨_, hline⟩ => hnone ⟨_, .child hparent hline⟩⟩
    have hall : ∀ n, ¬∃ line, (ofTypes m.types).Line (next^[n] d) line := by
      intro n
      induction n with
      | zero => exact hnone
      | succ n ih =>
        rw [Function.iterate_succ_apply']
        exact (hnext _ ih).2
    refine ⟨fun n => next^[n] d, rfl, fun n => ?_⟩
    change m.IsParent (next^[n + 1] d) (next^[n] d)
    rw [Function.iterate_succ_apply']
    exact (hnext _ (hall n)).1

/-- A climb that goes round has come to an ancestor of itself. -/
theorem ClimbEnds.not_acyclic (h : (ofTypes m.types).ClimbEnds (d :: chain) none)
    (hmem : ∀ p ∈ d :: chain, p ∈ m.types)
    (habove : ∀ p ∈ chain, Relation.TransGen m.IsParent d p) : ¬m.Acyclic := by
  generalize hstart : d :: chain = start at h
  generalize hend : none = result at h
  have hall : ∀ p, m.IsParent p d → ∀ q ∈ d :: chain, Relation.TransGen m.IsParent p q := by
    intro p hp q hq
    rcases List.mem_cons.1 hq with rfl | hq
    · exact .single hp
    · exact .head hp (habove q hq)
  induction h generalizing d chain with
  | top => simp at hend
  | round hparent hmet =>
    obtain ⟨rfl, rfl⟩ := List.cons.inj hstart
    have hp := isParent_of_parent? hparent
    obtain ⟨q, hq, hname⟩ := List.mem_map.1 hmet
    obtain rfl := List.inj_on_of_nodup_map m.names_nodup (hmem q hq) hp.1 hname
    exact fun hm => hm q (hall q hp q hq)
  | @step _ p _ _ hparent _ _ ih =>
    obtain ⟨rfl, rfl⟩ := List.cons.inj hstart
    have hp := isParent_of_parent? hparent
    refine ih (List.forall_mem_cons.2 ⟨hp.1, hmem⟩) (hall p hp) rfl hend fun q hq => ?_
    intro c hc
    rcases List.mem_cons.1 hc with rfl | hc
    · exact .single hq
    · exact .head hq (hall p hp c hc)

/-- Without a type among its own ancestors, every type has a chain of ancestors. -/
theorem exists_ancestry (hm : m.Acyclic) (hd : d ∈ m.types) :
    ∃ chain, (ofTypes m.types).ancestry d = .ok chain := by
  have hmem : d ∈ (ofTypes m.types).types := (types_perm m).mem_iff.2 hd
  have hclimb := climbEnds_of_mem hmem
  cases hends : (ofTypes m.types).climb ((ofTypes m.types).types.length + 1) [d] with
  | none =>
    rw [hends] at hclimb
    exact absurd hm (hclimb.not_acyclic (by simpa using hd) (by simp))
  | some chain =>
    rw [hends] at hclimb
    exact ⟨chain, ancestry_of_climbEnds_some hmem hclimb⟩

end Index
end DocSite
