import DocSite.Proofs.Site.Fault
import DocSite.Proofs.Site.Groupings
import DocSite.Proofs.Site.View

namespace DocSite
open Std

variable {all types : List Decl} {i : Index} {d s : Decl} {R : Decl → Decl → Prop}

namespace Index

theorem ascending_types (all : List Decl) :
    (ofTypes all).types.Pairwise fun a b => Text.compareNames a.name b.name = .lt :=
  (pairwise_types all).imp fun {a b} hlt => (compareBy_name a b).symm.trans hlt

theorem compareNames_self_ne_lt (name : String) : Text.compareNames name name ≠ .lt := by
  have hself : Text.compareNames name name = .eq := ReflCmp.compare_self
  simp [hself]

/-- Two types in order are left alone by sorting. -/
theorem eq_sortBy_of_perm (hperm : types.Perm all)
    (hnames : ∀ a ∈ types, ∀ b ∈ types, a.name = b.name → a = b)
    (hsorted : types.Pairwise fun a b => (Text.compareNames a.name b.name).isLE) :
    types = sortBy Decl.name all := by
  have hleft : types.Pairwise fun a b => (compareBy Decl.name a b).isLE := by
    refine hsorted.imp fun {a b} hle => ?_
    rwa [compareBy_name]
  have hright : (sortBy Decl.name all).Perm all := sortBy_perm
  refine (hperm.trans hright.symm).eq_of_pairwise ?_ hleft pairwise_sortBy
  intro a b ha hb hab hba
  have hb : b ∈ types := hperm.mem_iff.2 (hright.mem_iff.1 hb)
  exact hnames a ha b hb (name_eq_of_compareBy (OrientedCmp.isLE_antisymm hab hba))

theorem ascending_subclasses (all : List Decl) (d : Decl) :
    ((ofTypes all).subclasses d).Pairwise fun a b => Text.compareNames a.name b.name = .lt :=
  (ascending_types all).filter _

/-- The subclasses are what is noted while the kept types come in, sorted at the end. -/
theorem subclasses_eq_sortBy (all : List Decl) (d : Decl) : (ofTypes all).subclasses d =
    sortBy Decl.name ((firsts [] all).filter fun s => s.parent == some d.name) := by
  have hperm : (ofTypes all).types.Perm (firsts [] all) := sortBy_perm
  apply eq_sortBy_of_perm (hperm.filter _)
  · intro a ha b hb hname
    exact eq_of_name_eq (mem_of_mem_subclasses ha) (mem_of_mem_subclasses hb) hname
  · refine (ascending_subclasses all d).imp fun {a b} hlt => ?_
    rw [hlt]
    rfl

/-- A relation that the order of the types implies holds along the implementers if no type is listed
twice that it does not relate to itself. -/
theorem pairwise_implementers_iff
    (hR : ∀ a b, Text.compareNames a.name b.name = .lt → R a b) :
    ((ofTypes all).implementers d).Pairwise R ↔
      ∀ s ∈ (ofTypes all).types, s.interfaces.count d.name ≤ 1 ∨ R s s := by
  rw [implementers, List.pairwise_flatMap]
  simp only [List.pairwise_replicate, and_iff_left_iff_imp]
  intro _
  refine (ascending_types all).imp fun {a b} hlt x hx y hy => ?_
  rw [List.eq_of_mem_replicate hx, List.eq_of_mem_replicate hy]
  exact hR a b hlt

theorem ascending_implementers (all : List Decl) (d : Decl) :
    ((ofTypes all).implementers d).Pairwise fun a b =>
      (Text.compareNames a.name b.name).isLE := by
  refine (pairwise_implementers_iff fun a b hlt => by simp [hlt]).2 fun s _ => .inr ?_
  have hself : Text.compareNames s.name s.name = .eq := ReflCmp.compare_self
  simp [hself]

/-- A type is listed as often as it names the interface. -/
theorem count_implementers (all : List Decl) (d s : Decl) :
    ((ofTypes all).implementers d).count s =
      if s ∈ (ofTypes all).types then s.interfaces.count d.name else 0 := by
  have hnodup : (ofTypes all).types.Nodup := (nodup_types all).of_map
  unfold implementers
  generalize (ofTypes all).types = types at hnodup
  induction types with
  | nil => simp
  | cons a types ih =>
    obtain ⟨ha, hnodup⟩ := List.nodup_cons.1 hnodup
    rw [List.flatMap_cons, List.count_append, ih hnodup, List.count_replicate]
    by_cases heq : s = a
    · subst heq
      simp [ha]
    · simp [heq, Ne.symm heq]

/-- The implementers are what is noted while the kept types come in, for each interface that they
name, sorted at the end. -/
theorem implementers_eq_sortBy (all : List Decl) (d : Decl) : (ofTypes all).implementers d =
    sortBy Decl.name ((firsts [] all).flatMap fun s =>
      (s.interfaces.filter (· == d.name)).map fun _ => s) := by
  have hnoted : ∀ s : Decl, ((s.interfaces.filter (· == d.name)).map fun _ => s) =
      List.replicate (s.interfaces.count d.name) s := by
    intro s
    rw [List.map_const', List.count_eq_length_filter]
  have hperm : (ofTypes all).types.Perm (firsts [] all) := sortBy_perm
  simp only [hnoted]
  apply eq_sortBy_of_perm (hperm.flatMap_right _)
  · intro a ha b hb hname
    exact eq_of_name_eq (mem_of_mem_implementers ha) (mem_of_mem_implementers hb) hname
  · exact ascending_implementers all d

end Index

theorem names_of_views {l : Links} {views : List TypeView}
    (h : types.mapM (TypeView.of l) = .ok views) :
    views.map TypeView.name = types.map Decl.name := by
  induction types generalizing views with
  | nil =>
    obtain rfl := Except.ok.inj h
    rfl
  | cons d types ih =>
    rw [List.mapM_cons] at h
    obtain ⟨v, hv, h⟩ := bind_eq_ok.1 h
    obtain ⟨rest, hrest, h⟩ := bind_eq_ok.1 h
    obtain rfl := Except.ok.inj h
    rw [List.map_cons, List.map_cons, ih hrest, (TypeView.of_eq_ok hv).2.2]

theorem ClassView.names_of_relatives {l : Links} {tree subclasses implementers : List Decl}
    {v : ClassView} (h : ClassView.of l d tree subclasses implementers = .ok v) :
    v.subclasses.map TypeView.name = subclasses.map Decl.name ∧
      v.implementers.map TypeView.name = implementers.map Decl.name := by
  obtain ⟨_, -, h⟩ := bind_eq_ok.1 h
  obtain ⟨_, -, h⟩ := bind_eq_ok.1 h
  obtain ⟨_, hsub, h⟩ := bind_eq_ok.1 h
  obtain ⟨_, himpl, h⟩ := bind_eq_ok.1 h
  obtain ⟨_, -, h⟩ := bind_eq_ok.1 h
  obtain ⟨_, -, h⟩ := bind_eq_ok.1 h
  obtain ⟨_, -, h⟩ := bind_eq_ok.1 h
  obtain rfl := Except.ok.inj h
  exact ⟨names_of_views hsub, names_of_views himpl⟩

namespace Index

theorem nodup_names_subclasses (all : List Decl) (d : Decl) :
    (((ofTypes all).subclasses d).map Decl.name).Nodup := by
  refine List.pairwise_map.2 ((ascending_subclasses all d).imp fun {a b} hlt heq => ?_)
  exact compareNames_self_ne_lt b.name (heq ▸ hlt)

theorem nodup_names_implementers_iff : (((ofTypes all).implementers d).map Decl.name).Nodup ↔
    ∀ s ∈ (ofTypes all).types, s.interfaces.count d.name ≤ 1 := by
  have hne : ∀ a b : Decl, Text.compareNames a.name b.name = .lt → a.name ≠ b.name :=
    fun a b hlt heq => compareNames_self_ne_lt b.name (heq ▸ hlt)
  refine List.pairwise_map.trans ((pairwise_implementers_iff hne).trans ?_)
  simp

/-- The relatives of a type in the index of any list of types: its subclasses are the types below
it, in strictly ascending order, and its implementers the types that name it, in ascending order,
each as often as it does. Both lists are what is noted as the types come in, sorted. Implementers
ascend strictly, and the page of the type shows none twice, just if no type repeats the
interface. -/
theorem relatives_of_types (all : List Decl) (d : Decl) :
    let i := ofTypes all
    (∀ s, s ∈ i.subclasses d ↔ s ∈ i.types ∧ s.parent = some d.name) ∧
    ((i.subclasses d).Pairwise fun a b => Text.compareNames a.name b.name = .lt) ∧
    (∀ s, s ∈ i.implementers d ↔ s ∈ i.types ∧ d.name ∈ s.interfaces) ∧
    ((i.implementers d).Pairwise fun a b => (Text.compareNames a.name b.name).isLE) ∧
    (∀ s ∈ i.types, (i.implementers d).count s = s.interfaces.count d.name) ∧
    i.subclasses d =
      sortBy Decl.name ((firsts [] all).filter fun s => s.parent == some d.name) ∧
    i.implementers d = sortBy Decl.name ((firsts [] all).flatMap fun s =>
      (s.interfaces.filter (· == d.name)).map fun _ => s) ∧
    (((i.implementers d).Pairwise fun a b => Text.compareNames a.name b.name = .lt) ↔
      ∀ s ∈ i.types, s.interfaces.count d.name ≤ 1) ∧
    ∀ l tree v, ClassView.of l d tree (i.subclasses d) (i.implementers d) = .ok v →
      (v.subclasses.map TypeView.name).Nodup ∧
      ((v.implementers.map TypeView.name).Nodup ↔
        ∀ s ∈ i.types, s.interfaces.count d.name ≤ 1) := by
  intro i
  refine ⟨fun _ => mem_subclasses_iff, ascending_subclasses all d, fun _ => mem_implementers_iff,
    ascending_implementers all d, fun s hs => ?_, subclasses_eq_sortBy all d,
    implementers_eq_sortBy all d, ?_, fun l tree v hv => ?_⟩
  · rw [count_implementers, if_pos hs]
  · refine (pairwise_implementers_iff fun _ _ hlt => hlt).trans ?_
    simp only [compareNames_self_ne_lt, or_false, i]
  · obtain ⟨hsub, himpl⟩ := ClassView.names_of_relatives hv
    rw [hsub, himpl]
    exact ⟨nodup_names_subclasses all d, nodup_names_implementers_iff⟩

/-- A type below a class that names an interface twice. -/
def doubling : Decl :=
  ((Decl.builtin "A\\Twice" .classType).extending "Base").implementing "Marker"
    |>.implementing "Marker"

def doublingFamily : List Decl :=
  [Decl.builtin "Marker" .interfaceType, Decl.builtin "Base" .classType, doubling]

theorem firsts_doublingFamily : firsts [] doublingFamily = doublingFamily :=
  firsts_of_nodup (by decide) (by simp)

theorem mem_types_doublingFamily {d : Decl} :
    d ∈ (ofTypes doublingFamily).types ↔ d ∈ doublingFamily := by
  rw [ofTypes, mem_sortBy, firsts_doublingFamily]

theorem relatives_of_types_doubling :
    let marker := Decl.builtin "Marker" .interfaceType
    let i := ofTypes doublingFamily
    let l : Links := ⟨.standard, ⟨"src"⟩, ""⟩
    doubling ∈ i.subclasses (Decl.builtin "Base" .classType) ∧ doubling ∈ i.types ∧
    (i.implementers marker).count doubling = 2 ∧
    ∃ v, ClassView.of l marker [] (i.subclasses marker) (i.implementers marker) = .ok v ∧
      (v.subclasses.map TypeView.name).Nodup ∧ ¬(v.implementers.map TypeView.name).Nodup := by
  intro marker i l
  obtain ⟨hsub, -⟩ := relatives_of_types doublingFamily (Decl.builtin "Base" .classType)
  obtain ⟨-, -, -, -, hcount, -, -, -, hpage⟩ := relatives_of_types doublingFamily marker
  have hmem : doubling ∈ i.types := mem_types_doublingFamily.2 (by decide)
  obtain ⟨v, hv⟩ : ∃ v, ClassView.of l marker [] (i.subclasses marker) (i.implementers marker) =
      .ok v := exists_classView (by decide)
  obtain ⟨hnodup, hiff⟩ := hpage l [] v hv
  refine ⟨(hsub doubling).2 ⟨hmem, by decide⟩, hmem, (hcount doubling hmem).trans (by decide),
    v, hv, hnodup, fun hnodup => ?_⟩
  exact absurd (hiff.1 hnodup doubling hmem) (by decide)

/-- A type that names an interface twice is its implementer twice, so the list does not ascend
strictly. -/
theorem implementers_doubling :
    let marker := Decl.builtin "Marker" .interfaceType
    let implementers := (ofTypes doublingFamily).implementers marker
    marker ∈ (ofTypes doublingFamily).types ∧ implementers = [doubling, doubling] ∧
    ¬implementers.Pairwise fun a b => Text.compareNames a.name b.name = .lt := by
  intro marker implementers
  have hlist : implementers = [doubling, doubling] := by
    refine (implementers_eq_sortBy doublingFamily marker).trans ?_
    rw [firsts_doublingFamily]
    exact List.mergeSort_of_pairwise (by decide)
  refine ⟨mem_types_doublingFamily.2 (by decide), hlist, ?_⟩
  rw [hlist]
  decide

end Index
end DocSite
