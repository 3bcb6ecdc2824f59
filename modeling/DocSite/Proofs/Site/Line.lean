import DocSite.Proofs.Site.Groups
import Mathlib.Data.List.Chain
import Mathlib.Data.List.Perm.Subperm
import Mathlib.Logic.Relation

namespace DocSite.Index

variable {i : Index} {all : List Decl} {d p top : Decl} {chain above line line' : List Decl}
variable {result result' : Option (List Decl)}

theorem mem_of_parent? (h : i.parent? d = some p) : p ∈ i.types := by
  obtain ⟨_, -, hfind⟩ := Option.bind_eq_some_iff.1 h
  exact mem_of_find? hfind

theorem parent_eq_of_parent? (h : i.parent? d = some p) : d.parent = some p.name := by
  obtain ⟨name, hname, hfind⟩ := Option.bind_eq_some_iff.1 h
  have hp : p.name = name := by simpa using List.find?_some hfind
  rw [hname, hp]

/-- The known parents of a type up to one without a known parent: the topmost first and the type
itself last. -/
inductive Line (i : Index) : Decl → List Decl → Prop
  | root {d : Decl} (hnone : i.parent? d = none) : Line i d [d]
  | child {d p : Decl} {above : List Decl} (hparent : i.parent? d = some p)
      (habove : Line i p above) : Line i d (above ++ [d])

theorem Line.unique (h : i.Line d line) (h' : i.Line d line') : line = line' := by
  induction h generalizing line' with
  | root hnone =>
    cases h' with
    | root => rfl
    | child hparent => simp [hnone] at hparent
  | child hparent _ ih =>
    cases h' with
    | root hnone => simp [hnone] at hparent
    | child hparent' habove' =>
      obtain rfl := Option.some.inj (hparent.symm.trans hparent')
      rw [ih habove']

theorem Line.exists_eq_concat (h : i.Line d line) : ∃ above, line = above ++ [d] := by
  cases h with
  | root => exact ⟨[], rfl⟩
  | child => exact ⟨_, rfl⟩

theorem Line.getLast? (h : i.Line d line) : line.getLast? = some d := by
  obtain ⟨above, rfl⟩ := h.exists_eq_concat
  exact List.getLast?_concat

theorem Line.mem (h : i.Line d line) (hd : d ∈ i.types) : ∀ p ∈ line, p ∈ i.types := by
  induction h with
  | root => simpa using hd
  | child hparent _ ih =>
    intro q hq
    rcases List.mem_append.1 hq with hq | hq
    · exact ih (mem_of_parent? hparent) q hq
    · rwa [List.mem_singleton.1 hq]

theorem Line.exists_prefix (h : i.Line d line) (hp : p ∈ line) :
    ∃ above, i.Line p above ∧ above <+: line := by
  induction h with
  | root hnone =>
    obtain rfl := List.mem_singleton.1 hp
    exact ⟨_, .root hnone, List.prefix_refl _⟩
  | child hparent habove ih =>
    rcases List.mem_append.1 hp with hp | hp
    · obtain ⟨above, hline, hle⟩ := ih hp
      exact ⟨above, hline, hle.trans (List.prefix_append _ _)⟩
    · obtain rfl := List.mem_singleton.1 hp
      exact ⟨_, .child hparent habove, List.prefix_refl _⟩

/-- A type that stood on its own line above itself would have two lines. -/
theorem Line.nodup (h : i.Line d line) : line.Nodup := by
  induction h with
  | root => simp
  | @child d p above hparent habove ih =>
    refine List.nodup_append.2 ⟨ih, by simp, fun q hq d' hd' heq => ?_⟩
    obtain rfl := List.mem_singleton.1 hd'
    obtain ⟨upper, hupper, hle⟩ := habove.exists_prefix (heq ▸ hq)
    obtain rfl := hupper.unique (.child hparent habove)
    have hlength := hle.length_le
    rw [List.length_append, List.length_singleton] at hlength
    omega

theorem Line.names_nodup (h : (ofTypes all).Line d line) (hd : d ∈ (ofTypes all).types) :
    (line.map Decl.name).Nodup :=
  h.nodup.map_on fun _ ha _ hb => eq_of_name_eq (h.mem hd _ ha) (h.mem hd _ hb)

theorem Line.parent?_head (h : i.Line d line) : ∀ top, line.head? = some top →
    i.parent? top = none := by
  induction h with
  | root hnone => simpa using hnone
  | child _ habove ih =>
    obtain ⟨upper, rfl⟩ := habove.exists_eq_concat
    intro top htop
    refine ih top ?_
    cases upper <;> simpa using htop

/-- Of two neighbours on a line the first is the parent of the second. -/
theorem Line.isChain (h : i.Line d line) (hd : d ∈ i.types) :
    line.IsChain fun p c => c.parent = some p.name ∧ c ∈ i.subclasses p := by
  induction h with
  | root => simp
  | @child d p above hparent habove ih =>
    refine List.isChain_append.2 ⟨ih (mem_of_parent? hparent), by simp, fun q hq c hc => ?_⟩
    rw [habove.getLast?] at hq
    obtain rfl := Option.some.inj hq
    obtain rfl : d = c := by simpa using hc
    have hname := parent_eq_of_parent? hparent
    exact ⟨hname, mem_subclasses_iff.2 ⟨hd, hname⟩⟩

/-- A type has a line if its parents lead to a type without a known parent. -/
theorem exists_line_iff : (∃ line, i.Line d line) ↔
    ∃ top, Relation.ReflTransGen (fun c p => i.parent? c = some p) d top ∧
      i.parent? top = none := by
  constructor
  · rintro ⟨line, h⟩
    induction h with
    | root hnone => exact ⟨_, .refl, hnone⟩
    | child hparent _ ih =>
      obtain ⟨top, hreach, hnone⟩ := ih
      exact ⟨top, .head hparent hreach, hnone⟩
  · rintro ⟨top, hreach, hnone⟩
    induction hreach using Relation.ReflTransGen.head_induction_on with
    | refl => exact ⟨_, .root hnone⟩
    | head hparent _ ih =>
      obtain ⟨line, hline⟩ := ih
      exact ⟨_, .child hparent hline⟩

/-- How a climb ends that has come to a chain: at a type without a known parent, or with none at a
parent whose name it has met. -/
inductive ClimbEnds (i : Index) : List Decl → Option (List Decl) → Prop
  | top {d : Decl} {chain : List Decl} (hnone : i.parent? d = none) :
      ClimbEnds i (d :: chain) (some (d :: chain))
  | round {d p : Decl} {chain : List Decl} (hparent : i.parent? d = some p)
      (hmet : p.name ∈ (d :: chain).map Decl.name) : ClimbEnds i (d :: chain) none
  | step {d p : Decl} {chain : List Decl} {result : Option (List Decl)}
      (hparent : i.parent? d = some p) (hnew : p.name ∉ (d :: chain).map Decl.name)
      (hrest : ClimbEnds i (p :: d :: chain) result) : ClimbEnds i (d :: chain) result

theorem ClimbEnds.unique (h : i.ClimbEnds chain result) (h' : i.ClimbEnds chain result') :
    result = result' := by
  induction h with
  | top hnone =>
    cases h' with
    | top => rfl
    | round hparent | step hparent => simp [hnone] at hparent
  | round hparent hmet =>
    cases h' with
    | top hnone => simp [hnone] at hparent
    | round => rfl
    | step hparent' hnew =>
      obtain rfl := Option.some.inj (hparent.symm.trans hparent')
      exact absurd hmet hnew
  | step hparent hnew _ ih =>
    cases h' with
    | top hnone => simp [hnone] at hparent
    | round hparent' hmet =>
      obtain rfl := Option.some.inj (hparent.symm.trans hparent')
      exact absurd hmet hnew
    | step hparent' _ hrest =>
      obtain rfl := Option.some.inj (hparent.symm.trans hparent')
      exact ih hrest

/-- A climb through distinct types of the index ends, and a bound on its steps does not matter if it
allows for the types that are left. -/
theorem climbEnds_climb {n : Nat} (hmem : ∀ p ∈ d :: chain, p ∈ i.types)
    (hnames : ((d :: chain).map Decl.name).Nodup) (hn : i.types.length < n + (d :: chain).length) :
    i.ClimbEnds (d :: chain) (i.climb n (d :: chain)) := by
  induction n generalizing d chain with
  | zero =>
    have hle : (d :: chain).length ≤ i.types.length :=
      (List.subperm_of_subset hnames.of_map hmem).length_le
    omega
  | succ n ih =>
    rw [climb]
    split
    · rename_i hnone
      exact .top hnone
    · rename_i p hparent
      split
      · rename_i hmet
        exact .round hparent hmet
      · rename_i hnew
        refine .step hparent hnew (ih ?_ (List.nodup_cons.2 ⟨hnew, hnames⟩) ?_)
        · exact List.forall_mem_cons.2 ⟨mem_of_parent? hparent, hmem⟩
        · rw [List.length_cons]
          omega

theorem ClimbEnds.exists_line (h : i.ClimbEnds (d :: chain) (some above)) :
    ∃ line, i.Line d line ∧ above = line ++ chain := by
  generalize hstart : d :: chain = start at h
  generalize hend : some above = result at h
  induction h generalizing d chain with
  | top hnone =>
    obtain ⟨rfl, rfl⟩ := List.cons.inj hstart
    obtain rfl := Option.some.inj hend
    exact ⟨[d], .root hnone, rfl⟩
  | round => simp at hend
  | step hparent _ _ ih =>
    obtain ⟨rfl, rfl⟩ := List.cons.inj hstart
    obtain ⟨line, hline, rfl⟩ := ih rfl hend
    exact ⟨_, .child hparent hline, by simp⟩

theorem Line.climbEnds (h : i.Line d line) (hnames : ((line ++ chain).map Decl.name).Nodup) :
    i.ClimbEnds (d :: chain) (some (line ++ chain)) := by
  induction h generalizing chain with
  | root hnone => exact .top hnone
  | @child d p above hparent habove ih =>
    rw [List.append_assoc, List.singleton_append] at hnames ⊢
    refine .step hparent ?_ (ih hnames)
    -- the parent is the last type of the line above
    obtain ⟨upper, rfl⟩ := habove.exists_eq_concat
    rw [List.append_assoc, List.singleton_append, List.map_append, List.map_cons] at hnames
    exact (List.nodup_cons.1 (List.nodup_append.1 hnames).2.1).1

end DocSite.Index
