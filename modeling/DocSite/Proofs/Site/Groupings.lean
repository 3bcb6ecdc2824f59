import DocSite.Proofs.Site.Groups

namespace DocSite.Index
open Std

variable {all types before after : List Decl} {seen : List String} {name : String}
variable {key other order : Decl → String} {d : Decl} {g : Group}

/-- A type whose name was seen or comes earlier is not kept, and keeps no other out. -/
theorem firsts_drop (h : d.name ∈ seen ∨ ∃ p ∈ before, p.name = d.name) :
    firsts seen (before ++ d :: after) = firsts seen (before ++ after) := by
  induction before generalizing seen with
  | nil =>
    have hseen : d.name ∈ seen := by simpa using h
    rw [List.nil_append, List.nil_append, firsts, if_pos hseen]
  | cons a before ih =>
    have hrest : d.name ∈ a.name :: seen ∨ ∃ p ∈ before, p.name = d.name := by
      simp only [List.mem_cons, exists_eq_or_imp] at h ⊢
      tauto
    rw [List.cons_append, List.cons_append, firsts, firsts]
    split
    · rename_i hseen
      refine ih (hrest.imp_left fun hin => ?_)
      rcases List.mem_cons.1 hin with heq | hin
      · rwa [heq]
      · exact hin
    · rw [ih hrest]

/-- By their names alone, types are compared as the names are. -/
theorem compareBy_name (d p : Decl) :
    compareBy Decl.name d p = Text.compareNames d.name p.name := by
  rw [compareBy]
  cases hcmp : Text.compareNames d.name p.name with
  | lt => rfl
  | gt => rfl
  | eq =>
    rw [LawfulEqCmp.eq_of_compare hcmp]
    exact ReflCmp.compare_self

/-- How groups by a key stand to the types that are grouped. -/
structure Groups (key other order : Decl → String) (types : List Decl) (groups : List Group) :
    Prop where
  ascending : groups.Pairwise fun a b => Text.compareNames a.name b.name = .lt
  gathers : ∀ g ∈ groups, Gathers key other order types g
  /-- A type is once in the group of its key and in no other. -/
  count : ∀ d ∈ types, ∀ g ∈ groups, g.types.count d = if key d = g.name then 1 else 0
  /-- The types with a key are those in a group, and in one group only. -/
  existsUnique : ∀ d ∈ types, key d ≠ "" ↔ ∃! g, g ∈ groups ∧ d ∈ g.types

theorem count_of_gathers (hnodup : (types.map Decl.name).Nodup) (hd : d ∈ types)
    (hg : Gathers key other order types g) :
    g.types.count d = if key d = g.name then 1 else 0 := by
  have hfilter : (types.filter fun d => key d == g.name).Nodup := hnodup.of_map.filter _
  rw [hg.perm.count_eq]
  split
  · rename_i hkey
    exact List.count_eq_one_of_mem hfilter (List.mem_filter.2 ⟨hd, by simpa using hkey⟩)
  · rename_i hkey
    exact List.count_eq_zero.2 fun hin => hkey (by simpa using (List.mem_filter.1 hin).2)

theorem pairwise_names_groupBy : (groupBy key other order types).Pairwise fun a b =>
    Text.compareNames a.name b.name = .lt :=
  List.pairwise_map.1 (enumerates_groupBy key other order types).ascending

theorem nodup_names_groupBy : ((groupBy key other order types).map Group.name).Nodup :=
  (enumerates_groupBy key other order types).nodup

theorem groups_groupBy (hnodup : (types.map Decl.name).Nodup) :
    Groups key other order types (groupBy key other order types) := by
  have hgathers : ∀ g ∈ groupBy key other order types, Gathers key other order types g :=
    fun g hg => gathers_of_mem hnodup hg
  have hmem : ∀ g ∈ groupBy key other order types, ∀ d,
      d ∈ g.types ↔ d ∈ types ∧ key d = g.name := by
    intro g hg d
    rw [(hgathers g hg).perm.mem_iff, List.mem_filter, beq_iff_eq]
  refine ⟨pairwise_names_groupBy, hgathers,
    fun d hd g hg => count_of_gathers hnodup hd (hgathers g hg), fun d hd => ⟨fun hkey => ?_, ?_⟩⟩
  · obtain ⟨g, hg, hname⟩ := List.mem_map.1 (mem_names_groupBy.2 ⟨hkey, d, hd, rfl⟩)
    refine ⟨g, ⟨hg, (hmem g hg d).2 ⟨hd, hname.symm⟩⟩, fun g' ⟨hg', hd'⟩ => ?_⟩
    exact List.inj_on_of_nodup_map nodup_names_groupBy hg' hg
      (((hmem g' hg' d).1 hd').2.symm.trans hname.symm)
  · rintro ⟨g, ⟨hg, hin⟩, -⟩
    rw [((hmem g hg d).1 hin).2]
    exact (hgathers g hg).name_ne

/-- The group of a name lists just the other names that go with it. -/
theorem exists_related_iff (hnodup : (types.map Decl.name).Nodup) {otherName : String} :
    (∃ g, (groupBy key other order types).find? (fun g => g.name == name) = some g ∧
      otherName ∈ g.related) ↔
    name ≠ "" ∧ otherName ≠ "" ∧ ∃ d ∈ types, key d = name ∧ other d = otherName := by
  simp only [find?_name_eq_some nodup_names_groupBy]
  constructor
  · rintro ⟨g, ⟨hg, rfl⟩, hin⟩
    have hgathers := gathers_of_mem hnodup hg
    exact ⟨hgathers.name_ne, (hgathers.related.mem_iff _).1 hin⟩
  · rintro ⟨hname, hother, d, hd, hkey, hd'⟩
    have hin : name ∈ (groupBy key other order types).map Group.name :=
      mem_names_groupBy.2 ⟨hname, d, hd, hkey⟩
    obtain ⟨g, hg, rfl⟩ := List.mem_map.1 hin
    exact ⟨g, ⟨hg, rfl⟩,
      ((gathers_of_mem hnodup hg).related.mem_iff _).2 ⟨hother, d, hd, hkey, hd'⟩⟩

/-- A type of which the name comes earlier changes nothing in the index. -/
theorem ofTypes_drop (h : ∃ p ∈ before, p.name = d.name) :
    ofTypes (before ++ d :: after) = ofTypes (before ++ after) := by
  simp only [ofTypes, firsts_drop (.inr h)]

/-- A kept type lies in a namespace and in a package. -/
def Joins (i : Index) (ns package : String) : Prop :=
  ns ≠ "" ∧ package ≠ "" ∧ ∃ d ∈ i.types, d.ns = ns ∧ d.package = package

/-- The index of any list of types keeps the first type of each name, in strictly ascending order,
and groups them exactly by namespace and by package. Namespaces and packages list each other just
if they have a type in common, look-ups find what is listed, and later types of a name count
nowhere. -/
theorem groupings_of_types (all : List Decl) :
    let i := ofTypes all
    (∀ d, d ∈ i.types ↔ all.find? (fun p => p.name == d.name) = some d) ∧
    (i.types.Pairwise fun a b => Text.compareNames a.name b.name = .lt) ∧
    Groups Decl.ns Decl.package Decl.shortName i.types i.namespaces ∧
    Groups Decl.package Decl.ns Decl.name i.types i.packages ∧
    (∀ ns package, (∃ g, i.namespace? ns = some g ∧ package ∈ g.related) ↔ i.Joins ns package) ∧
    (∀ ns package, (∃ g, i.package? package = some g ∧ ns ∈ g.related) ↔ i.Joins ns package) ∧
    (∀ name d, i.find? name = some d ↔ d ∈ i.types ∧ d.name = name) ∧
    (∀ name g, i.namespace? name = some g ↔ g ∈ i.namespaces ∧ g.name = name) ∧
    (∀ name g, i.package? name = some g ↔ g ∈ i.packages ∧ g.name = name) ∧
    (∀ d p, p ∈ i.subclasses d ↔ p ∈ i.types ∧ p.parent = some d.name) ∧
    (∀ d p, p ∈ i.implementers d ↔ p ∈ i.types ∧ d.name ∈ p.interfaces) ∧
    ∀ before d after, all = before ++ d :: after → (∃ p ∈ before, p.name = d.name) →
      ofTypes (before ++ after) = i := by
  intro i
  have hnodup : (i.types.map Decl.name).Nodup := nodup_types all
  refine ⟨fun _ => mem_types_iff, ?_, groups_groupBy hnodup, groups_groupBy hnodup,
    fun _ _ => exists_related_iff hnodup, fun _ _ => ?_, fun _ _ => find?_eq_some_iff,
    fun _ _ => find?_name_eq_some nodup_names_groupBy,
    fun _ _ => find?_name_eq_some nodup_names_groupBy, fun _ _ => mem_subclasses_iff,
    fun _ _ => mem_implementers_iff, ?_⟩
  · exact (pairwise_types all).imp fun {a b} hlt => (compareBy_name a b).symm.trans hlt
  · rw [Joins, and_left_comm]
    simp only [and_comm (a := Decl.ns _ = _)]
    exact exists_related_iff hnodup
  · rintro before d after rfl h
    exact (ofTypes_drop h).symm

/-- Of a class and an interface with the same name, in this order, the interface is dropped. -/
theorem groupings_of_types_namesakes :
    let cls := Decl.builtin "N\\A" .classType
    let namesake := Decl.builtin "N\\A" .interfaceType
    ofTypes [cls, namesake] = ofTypes [cls] ∧ cls ∈ (ofTypes [cls, namesake]).types ∧
      namesake ∉ (ofTypes [cls, namesake]).types := by
  intro cls namesake
  obtain ⟨hkept, -, -, -, -, -, -, -, -, -, -, hdrop⟩ := groupings_of_types [cls, namesake]
  refine ⟨(hdrop [cls] namesake [] rfl ⟨cls, .head _, rfl⟩).symm, (hkept cls).2 (by decide), ?_⟩
  exact fun hin => absurd ((hkept namesake).1 hin) (by decide)

end DocSite.Index
