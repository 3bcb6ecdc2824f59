import DocSite.Site.Index
import Mathlib.Data.List.Nodup

namespace DocSite

theorem find?_name_eq_some {α : Type} {nameOf : α → String} {items : List α} {a : α}
    {name : String} (hnodup : (items.map nameOf).Nodup) :
    (items.find? fun b => nameOf b == name) = some a ↔ a ∈ items ∧ nameOf a = name := by
  constructor
  · intro hfind
    exact ⟨List.mem_of_find?_eq_some hfind, by simpa using List.find?_some hfind⟩
  · rintro ⟨ha, hname⟩
    cases hfind : items.find? fun b => nameOf b == name with
    | none =>
      have hno := List.find?_eq_none.1 hfind a ha
      exact absurd (by simpa using hname) hno
    | some b =>
      have hb : nameOf b = name := by simpa using List.find?_some hfind
      have hmem : b ∈ items := List.mem_of_find?_eq_some hfind
      rw [List.inj_on_of_nodup_map hnodup hmem ha (hb.trans hname.symm)]

theorem Text.mem_dropRepeats {names : List String} {name : String} :
    name ∈ Text.dropRepeats names ↔ name ∈ names := by
  induction names with
  | nil => simp [Text.dropRepeats]
  | cons a names ih =>
    cases names with
    | nil => simp [Text.dropRepeats]
    | cons b rest =>
      rw [Text.dropRepeats]
      split
      · rename_i heq
        rw [ih, heq]
        simp
      · rw [List.mem_cons, ih]
        exact List.mem_cons.symm

theorem FileSet.insert_eq_true {s s' : FileSet} {file : Path} (h : s.insert file = (s', true)) :
    ∀ f, f ∈ s'.files → f ∈ s.files ∨ f = file := by
  unfold FileSet.insert at h
  split at h
  · simp at h
  · obtain ⟨rfl, -⟩ := Prod.mk.inj h
    intro f hf
    simpa using hf

theorem FileSet.insert_eq_false {s s' : FileSet} {file : Path} (h : s.insert file = (s', false)) :
    s' = s ∧ ∃ f ∈ s.files, f.SamePlace file := by
  unfold FileSet.insert at h
  split at h
  · rename_i hmem
    obtain ⟨rfl, -⟩ := Prod.mk.inj h
    refine ⟨rfl, ?_⟩
    simpa [FileSet.contains] using hmem
  · simp at h

namespace Index

variable {i : Index} {all types : List Decl} {seen names : List String} {name : String} {d p : Decl}

theorem mem_distinctNames : name ∈ distinctNames names ↔ name ∈ names ∧ name ≠ "" := by
  rw [distinctNames, Text.mem_dropRepeats, Text.sortNames, List.mem_mergeSort, List.mem_filter,
    bne_iff_ne]

theorem mem_sortBy {key : Decl → String} : d ∈ sortBy key types ↔ d ∈ types := by
  rw [sortBy, List.mem_mergeSort]

/-- What is kept of a name not yet seen is the type that the name finds first. -/
theorem mem_firsts_iff : d ∈ firsts seen types ↔
    d.name ∉ seen ∧ types.find? (fun p => p.name == d.name) = some d := by
  induction types generalizing seen with
  | nil => simp [firsts]
  | cons a types ih =>
    rw [firsts, List.find?_cons]
    by_cases hname : a.name = d.name
    · -- `a` is the first type of the name
      simp only [hname, beq_self_eq_true, Option.some.injEq]
      split
      · rename_i hseen
        simp [ih, hseen]
      · rename_i hseen
        simp only [List.mem_cons, ih, hseen, not_false_eq_true, true_and, not_true_eq_false,
          false_and, or_false]
        exact eq_comm
    · have hfalse : (a.name == d.name) = false := by simpa using hname
      have hne : d ≠ a := fun heq => hname (by rw [heq])
      simp only [hfalse]
      split
      · exact ih
      · simp [ih, hne, Ne.symm hname]

theorem nodup_firsts (seen : List String) (types : List Decl) :
    ((firsts seen types).map Decl.name).Nodup := by
  induction types generalizing seen with
  | nil => simp [firsts]
  | cons a types ih =>
    rw [firsts]
    split
    · exact ih seen
    · -- the rest is told that the name of `a` was seen, so it has no type of that name
      rw [List.map_cons, List.nodup_cons]
      refine ⟨fun ha => ?_, ih (a.name :: seen)⟩
      obtain ⟨d, hd, hname⟩ := List.mem_map.1 ha
      exact (mem_firsts_iff.1 hd).1 (by simp [hname])

theorem mem_types_iff : d ∈ (ofTypes all).types ↔
    all.find? (fun p => p.name == d.name) = some d := by
  rw [ofTypes, mem_sortBy, mem_firsts_iff]
  simp

theorem mem_of_mem_types (h : d ∈ (ofTypes all).types) : d ∈ all :=
  List.mem_of_find?_eq_some (mem_types_iff.1 h)

theorem eq_of_name_eq (hd : d ∈ (ofTypes all).types) (hp : p ∈ (ofTypes all).types)
    (h : d.name = p.name) : d = p := by
  have hnodup := nodup_firsts [] all
  exact List.inj_on_of_nodup_map hnodup (mem_sortBy.1 hd) (mem_sortBy.1 hp) h

theorem mem_of_find? (h : i.find? name = some d) : d ∈ i.types := List.mem_of_find?_eq_some h

theorem mem_subclasses_iff :
    p ∈ i.subclasses d ↔ p ∈ i.types ∧ p.parent = some d.name := by
  rw [subclasses, List.mem_filter, beq_iff_eq]

theorem mem_implementers_iff :
    p ∈ i.implementers d ↔ p ∈ i.types ∧ d.name ∈ p.interfaces := by
  simp only [implementers, List.mem_flatMap, List.mem_replicate, ne_eq, List.count_eq_zero, not_not]
  constructor
  · rintro ⟨s, hs, hin, rfl⟩
    exact ⟨hs, hin⟩
  · rintro ⟨hp, hin⟩
    exact ⟨p, hp, hin, rfl⟩

theorem mem_of_mem_subclasses (h : p ∈ i.subclasses d) : p ∈ i.types :=
  (mem_subclasses_iff.1 h).1

theorem mem_of_mem_implementers (h : p ∈ i.implementers d) : p ∈ i.types :=
  (mem_implementers_iff.1 h).1

theorem mem_of_mem_climb {n : Nat} {chain top : List Decl} (h : i.climb n chain = some top)
    (hchain : ∀ d ∈ chain, d ∈ i.types) : ∀ d ∈ top, d ∈ i.types := by
  induction n generalizing chain with
  | zero => simp [climb] at h
  | succ n ih =>
    cases chain with
    | nil =>
      simp only [climb, Option.some.injEq] at h
      simp [← h]
    | cons a chain =>
      simp only [climb] at h
      split at h
      · rwa [← Option.some.inj h]
      · rename_i q hq
        split at h
        · simp at h
        · refine ih h fun d hd => ?_
          rcases List.mem_cons.1 hd with rfl | hd
          · obtain ⟨parent, -, hfind⟩ := Option.bind_eq_some_iff.1 hq
            exact mem_of_find? hfind
          · exact hchain d hd

/-- The ancestors of a type of the index are types of the index. -/
theorem mem_of_mem_ancestry {chain : List Decl} (hd : d ∈ i.types) (h : i.ancestry d = .ok chain)
    (hp : p ∈ chain) : p ∈ i.types := by
  unfold ancestry at h
  split at h
  · rename_i top hclimb
    obtain rfl := Except.ok.inj h
    exact mem_of_mem_climb hclimb (by simpa using hd) p hp
  · simp at h

section Groups

variable {key other order : Decl → String} {g : Group}

theorem mem_names_groupBy : name ∈ (groupBy key other order types).map Group.name ↔
    name ≠ "" ∧ ∃ d ∈ types, key d = name := by
  simp only [groupBy, List.map_map, Function.comp_def, List.map_id', mem_distinctNames,
    List.mem_map]
  exact and_comm

/-- A group holds types of the index, and names of types of the index. -/
theorem mem_group (hg : g ∈ groupBy key other order types) : (∀ d ∈ g.types, d ∈ types) ∧
    ∀ name ∈ g.related, name ≠ "" ∧ ∃ d ∈ types, other d = name := by
  obtain ⟨name, -, rfl⟩ := List.mem_map.1 hg
  constructor
  · intro d hd
    exact (List.mem_filter.1 (mem_sortBy.1 hd)).1
  · intro n hn
    obtain ⟨hn, hne⟩ := mem_distinctNames.1 hn
    obtain ⟨d, hd, rfl⟩ := List.mem_map.1 hn
    exact ⟨hne, d, (List.mem_filter.1 hd).1, rfl⟩

end Groups

theorem mem_namespaceNames : name ∈ (ofTypes all).namespaceNames ↔
    name ≠ "" ∧ ∃ d ∈ (ofTypes all).types, d.ns = name := mem_names_groupBy

theorem mem_packageNames : name ∈ (ofTypes all).packageNames ↔
    name ≠ "" ∧ ∃ d ∈ (ofTypes all).types, d.package = name := mem_names_groupBy

theorem mem_of_mem_relatedNamespaces {ns : String} (h : name ∈ i.relatedNamespaces ns) :
    name ∈ i.namespaceNames := (List.mem_filter.1 h).1

theorem mem_sourcesFrom {seen : FileSet} {file : Path} (h : (d, file) ∈ sourcesFrom seen types) :
    d ∈ types ∧ d.sourceFile? = some file := by
  induction types generalizing seen with
  | nil => simp [sourcesFrom] at h
  | cons a types ih =>
    rw [sourcesFrom] at h
    split at h
    · exact (ih h).imp_left (.tail _)
    · rename_i f hf
      split at h
      · rcases List.mem_cons.1 h with heq | h
        · obtain ⟨rfl, rfl⟩ := Prod.mk.inj heq
          exact ⟨.head _, hf⟩
        · exact (ih h).imp_left (.tail _)
      · exact (ih h).imp_left (.tail _)

/-- Each declaring file was seen before or has a source entry for the same place. -/
theorem exists_source (seen : FileSet) {file : Path} (hd : d ∈ types)
    (hfile : d.sourceFile? = some file) :
    (∃ f ∈ seen.files, f.SamePlace file) ∨
      ∃ q ∈ sourcesFrom seen types, q.2.SamePlace file := by
  induction types generalizing seen with
  | nil => simp at hd
  | cons a types ih =>
    rw [sourcesFrom]
    by_cases ha : d = a
    · subst ha
      simp only [hfile]
      split
      · exact .inr ⟨_, .head _, rfl⟩
      · rename_i seen' hinsert
        exact .inl (FileSet.insert_eq_false hinsert).2
    · have hd : d ∈ types := (List.mem_cons.1 hd).resolve_left ha
      split
      · exact ih seen hd
      · rename_i f _
        split
        · rename_i seen' hinsert
          -- a file that the rest has seen was seen before or is the one listed here
          rcases ih seen' hd with ⟨g, hg, hsame⟩ | ⟨q, hq, hsame⟩
          · rcases FileSet.insert_eq_true hinsert g hg with hg | rfl
            · exact .inl ⟨g, hg, hsame⟩
            · exact .inr ⟨_, .head _, hsame⟩
          · exact .inr ⟨q, .tail _ hq, hsame⟩
        · rename_i seen' hinsert
          obtain ⟨rfl, -⟩ := FileSet.insert_eq_false hinsert
          exact ih seen' hd

theorem exists_mem_sources {file : Path} (hd : d ∈ i.types) (hfile : d.sourceFile? = some file) :
    ∃ q ∈ i.sources, q.2.SamePlace file := by
  rcases exists_source {} hd hfile with ⟨f, hf, -⟩ | h
  · simp at hf
  · exact h

end Index
end DocSite
