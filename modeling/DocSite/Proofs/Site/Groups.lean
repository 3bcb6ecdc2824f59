import DocSite.Proofs.Site.Order
import Mathlib.Data.List.Dedup

namespace DocSite
open Std

namespace Text

variable {names : List String} {name : String} {P : String → Prop}

instance : LawfulEqCmp compareNames where
  eq_of_compare h := LawfulEqCmp.eq_of_compare (Ordering.then_eq_eq.1 h).2

/-- Just the names with a property, in ascending order and each once. -/
structure Enumerates (names : List String) (P : String → Prop) : Prop where
  ascending : names.Pairwise fun a b => compareNames a b = .lt
  mem_iff : ∀ name, name ∈ names ↔ P name

theorem Enumerates.nodup (h : Enumerates names P) : names.Nodup := by
  refine h.ascending.imp fun {a b} hlt heq => ?_
  have hself : compareNames a a = .eq := ReflCmp.compare_self
  simp [← heq, hself] at hlt

theorem pairwise_sortNames : (sortNames names).Pairwise fun a b => (compareNames a b).isLE :=
  pairwise_mergeSort compareNames names

/-- Without the repeats, names in ascending order ascend strictly. -/
theorem pairwise_dropRepeats (h : names.Pairwise fun a b => (compareNames a b).isLE) :
    (dropRepeats names).Pairwise fun a b => compareNames a b = .lt := by
  induction names with
  | nil => simp [dropRepeats]
  | cons a names ih =>
    cases names with
    | nil => simp [dropRepeats]
    | cons b rest =>
      obtain ⟨ha, hrest⟩ := List.pairwise_cons.1 h
      rw [dropRepeats]
      split
      · exact ih hrest
      · rename_i hne
        refine List.pairwise_cons.2 ⟨fun c hc => ?_, ih hrest⟩
        have hab : compareNames a b = .lt := by
          cases hcmp : compareNames a b with
          | lt => rfl
          | eq => exact absurd (LawfulEqCmp.eq_of_compare hcmp) hne
          | gt => simpa [hcmp] using ha b (.head _)
        -- what is left after `b` is `b` itself or comes after it
        rcases List.mem_cons.1 (mem_dropRepeats.1 hc) with rfl | hc
        · exact hab
        · exact TransCmp.lt_of_lt_of_isLE hab ((List.pairwise_cons.1 hrest).1 c hc)

/-- Two lists of the same names are equally long if none of them repeats a name. -/
theorem Enumerates.length_eq {all : List String} (h : Enumerates names (· ∈ all)) :
    names.length = all.dedup.length := by
  refine ((List.perm_ext_iff_of_nodup h.nodup all.nodup_dedup).2 fun name => ?_).length_eq
  rw [h.mem_iff, List.mem_dedup]

end Text

namespace Index

variable {all types : List Decl} {key other order : Decl → String} {names : List String}
variable {d p : Decl} {g : Group} {file : Path}

theorem enumerates_distinctNames :
    Text.Enumerates (distinctNames names) fun name => name ∈ names ∧ name ≠ "" :=
  ⟨Text.pairwise_dropRepeats Text.pairwise_sortNames, fun _ => mem_distinctNames⟩

theorem sortBy_perm : (sortBy key types).Perm types := List.mergeSort_perm ..

theorem pairwise_sortBy_lt (hnodup : (types.map Decl.name).Nodup) :
    (sortBy key types).Pairwise fun a b => compareBy key a b = .lt := by
  have hnames : ((sortBy key types).map Decl.name).Nodup :=
    (sortBy_perm.map Decl.name).nodup_iff.2 hnodup
  refine (pairwise_sortBy.and (List.pairwise_map.1 hnames)).imp fun {a b} ⟨hle, hne⟩ => ?_
  cases hcmp : compareBy key a b with
  | lt => rfl
  | eq => exact absurd (name_eq_of_compareBy hcmp) hne
  | gt => simp [hcmp] at hle

theorem types_perm (m : Model) : (ofTypes m.types).types.Perm m.types := by
  have hall : firsts [] m.types = m.types := firsts_of_nodup m.names_nodup (by simp)
  have hperm : (ofTypes m.types).types.Perm (firsts [] m.types) := sortBy_perm
  rwa [hall] at hperm

theorem nodup_types (all : List Decl) : ((ofTypes all).types.map Decl.name).Nodup :=
  (sortBy_perm.map Decl.name).nodup_iff.2 (nodup_firsts [] all)

theorem find?_eq_some_iff {name : String} :
    (ofTypes all).find? name = some d ↔ d ∈ (ofTypes all).types ∧ d.name = name :=
  find?_name_eq_some (nodup_types all)

theorem pairwise_types (all : List Decl) :
    (ofTypes all).types.Pairwise fun a b => compareBy Decl.name a b = .lt :=
  pairwise_sortBy_lt (nodup_firsts [] all)

theorem enumerates_groupBy (key other order : Decl → String) (types : List Decl) :
    Text.Enumerates ((groupBy key other order types).map Group.name)
      fun name => name ≠ "" ∧ ∃ d ∈ types, key d = name := by
  have hnames : (groupBy key other order types).map Group.name =
      distinctNames (types.map key) := by
    simp [groupBy, Function.comp_def]
  exact ⟨hnames ▸ enumerates_distinctNames.ascending, fun _ => mem_names_groupBy⟩

/-- What a group holds: the types of its key in its order, and the names that go with them. -/
structure Gathers (key other order : Decl → String) (types : List Decl) (g : Group) : Prop where
  name_ne : g.name ≠ ""
  types_ne : g.types ≠ []
  perm : g.types.Perm (types.filter fun d => key d == g.name)
  ascending : g.types.Pairwise fun a b => compareBy order a b = .lt
  related : Text.Enumerates g.related fun name =>
    name ≠ "" ∧ ∃ d ∈ types, key d = g.name ∧ other d = name

theorem gathers_of_mem (hnodup : (types.map Decl.name).Nodup)
    (hg : g ∈ groupBy key other order types) : Gathers key other order types g := by
  obtain ⟨hname, d, hd, hkey⟩ := mem_names_groupBy.1 (List.mem_map_of_mem hg)
  obtain ⟨name, -, rfl⟩ := List.mem_map.1 hg
  have hsub : ((types.filter fun d => key d == name).map Decl.name).Nodup :=
    hnodup.sublist (List.filter_sublist.map Decl.name)
  refine ⟨hname, ?_, sortBy_perm, pairwise_sortBy_lt hsub, ?_, fun other' => ?_⟩
  · refine List.ne_nil_of_mem (mem_sortBy.2 (List.mem_filter.2 ⟨hd, ?_⟩) : d ∈ _)
    simpa using hkey
  · exact enumerates_distinctNames.ascending
  · rw [enumerates_distinctNames.mem_iff, and_comm]
    simp [and_assoc]

/-- The type stands in the list, and none before it is declared in the file. -/
def FirstIn (types : List Decl) (d : Decl) (file : Path) : Prop :=
  ∃ before after, types = before ++ d :: after ∧
    ∀ p ∈ before, ∀ f, p.sourceFile? = some f → ¬f.SamePlace file

theorem firstIn_cons : FirstIn (p :: types) d file ↔ p = d ∨
    (∀ f, p.sourceFile? = some f → ¬f.SamePlace file) ∧ FirstIn types d file := by
  constructor
  · rintro ⟨before, after, heq, hno⟩
    cases before with
    | nil => exact .inl (List.cons.inj heq).1
    | cons q before =>
      obtain ⟨rfl, rfl⟩ := List.cons.inj heq
      exact .inr ⟨hno _ (.head _), before, after, rfl, fun q hq => hno q (.tail _ hq)⟩
  · rintro (rfl | ⟨hp, before, after, rfl, hno⟩)
    · exact ⟨[], types, rfl, by simp⟩
    · refine ⟨p :: before, after, rfl, fun q hq => ?_⟩
      rcases List.mem_cons.1 hq with rfl | hq
      · exact hp
      · exact hno q hq

/-- The type is the first one, in the order of the index, that is declared in the file. -/
def Introduces (i : Index) (d : Decl) (file : Path) : Prop :=
  d.sourceFile? = some file ∧ FirstIn i.types d file

theorem insert_cases (seen : FileSet) (file : Path) :
    (seen.insert file = (⟨seen.files ++ [file]⟩, true) ∧ ∀ f ∈ seen.files, ¬f.SamePlace file) ∨
    (seen.insert file = (seen, false) ∧ ∃ f ∈ seen.files, f.SamePlace file) := by
  unfold FileSet.insert
  split
  · rename_i hseen
    exact .inr ⟨rfl, by simpa [FileSet.contains] using hseen⟩
  · rename_i hnew
    exact .inl ⟨rfl, by simpa [FileSet.contains] using hnew⟩

/-- A file has its source entry at its first type, unless it was seen before. -/
theorem mem_sourcesFrom_iff {seen : FileSet} : (d, file) ∈ sourcesFrom seen types ↔
    d.sourceFile? = some file ∧ (∀ f ∈ seen.files, ¬f.SamePlace file) ∧
      FirstIn types d file := by
  induction types generalizing seen with
  | nil => simp [sourcesFrom, FirstIn]
  | cons a types ih =>
    rw [sourcesFrom, firstIn_cons]
    cases ha : a.sourceFile? with
    | none =>
      -- a type without a file introduces none
      have hne : d.sourceFile? = some file → a ≠ d := by
        rintro hd rfl
        simp [ha] at hd
      simp only [ih]
      grind
    | some g =>
      rcases insert_cases seen g with ⟨hinsert, hnew⟩ | ⟨hinsert, f, hf, hsame⟩
      · simp only [hinsert, List.mem_cons, Prod.mk.injEq, ih, List.mem_append]
        constructor
        · rintro (⟨rfl, rfl⟩ | ⟨hd, hseen, hfirst⟩)
          · exact ⟨ha, hnew, .inl rfl⟩
          · exact ⟨hd, fun f hf => hseen f (.inl hf),
              .inr ⟨fun f hf => hseen f (.inr (by simpa using hf.symm)), hfirst⟩⟩
        · rintro ⟨hd, hseen, rfl | ⟨hnot, hfirst⟩⟩
          · exact .inl ⟨rfl, Option.some.inj (hd.symm.trans ha)⟩
          · refine .inr ⟨hd, fun f hf => ?_, hfirst⟩
            rcases hf with hf | hf
            · exact hseen f hf
            · obtain rfl : f = g := by simpa using hf
              exact hnot f rfl
      · simp only [hinsert, ih]
        constructor
        · rintro ⟨hd, hseen, hfirst⟩
          refine ⟨hd, hseen, .inr ⟨fun g' hg' hplace => hseen f hf ?_, hfirst⟩⟩
          exact hsame.trans (Option.some.inj hg' ▸ hplace)
        · rintro ⟨hd, hseen, rfl | ⟨-, hfirst⟩⟩
          · obtain rfl := Option.some.inj (hd.symm.trans ha)
            exact absurd hsame (hseen f hf)
          · exact ⟨hd, hseen, hfirst⟩

/-- Each declaring file is the place of one source entry at most. -/
theorem nodup_sourcesFrom (seen : FileSet) (types : List Decl) :
    ((sourcesFrom seen types).map fun q => q.2.components).Nodup := by
  induction types generalizing seen with
  | nil => simp [sourcesFrom]
  | cons a types ih =>
    rw [sourcesFrom]
    split
    · exact ih seen
    · rename_i g _
      split
      · rename_i seen' hinsert
        rw [List.map_cons, List.nodup_cons]
        refine ⟨fun hmem => ?_, ih seen'⟩
        -- the rest is told that the file was seen
        obtain ⟨⟨d, f⟩, hq, hsame⟩ := List.mem_map.1 hmem
        rcases insert_cases seen g with ⟨heq, -⟩ | ⟨heq, -⟩
        · obtain ⟨rfl, -⟩ := Prod.mk.inj (heq.symm.trans hinsert)
          exact (mem_sourcesFrom_iff.1 hq).2.1 g (by simp) hsame.symm
        · simp [heq] at hinsert
      · exact ih _

theorem sourcesFrom_sublist (seen : FileSet) (types : List Decl) :
    ((sourcesFrom seen types).map Prod.fst).Sublist types := by
  induction types generalizing seen with
  | nil => simp [sourcesFrom]
  | cons a types ih =>
    rw [sourcesFrom]
    split
    · exact (ih seen).cons a
    · split
      · exact (ih _).cons_cons a
      · exact (ih _).cons a

theorem mem_sources_iff {i : Index} : (d, file) ∈ i.sources ↔ i.Introduces d file := by
  rw [sources, mem_sourcesFrom_iff, Introduces]
  simp

theorem existsUnique_source {i : Index} (hd : d ∈ i.types) (hfile : d.sourceFile? = some file) :
    ∃! q, q ∈ i.sources ∧ q.2.SamePlace file := by
  obtain ⟨q, hq, hsame⟩ := exists_mem_sources hd hfile
  refine ⟨q, ⟨hq, hsame⟩, fun q' ⟨hq', hsame'⟩ => ?_⟩
  exact List.inj_on_of_nodup_map (nodup_sourcesFrom {} i.types) hq' hq (hsame'.trans hsame.symm)

/-- There are as many source entries as distinct declaring files. -/
theorem length_sources (i : Index) : i.sources.length =
    ((i.types.filterMap Decl.sourceFile?).map Path.components).dedup.length := by
  rw [← List.length_map (f := fun q : Decl × Path => q.2.components)]
  refine ((List.perm_ext_iff_of_nodup (nodup_sourcesFrom {} i.types)
    (List.nodup_dedup _)).2 fun place => ?_).length_eq
  simp only [List.mem_dedup, List.mem_map, List.mem_filterMap]
  constructor
  · rintro ⟨⟨d, file⟩, hq, rfl⟩
    obtain ⟨hd, hfile⟩ := mem_sourcesFrom hq
    exact ⟨file, ⟨d, hd, hfile⟩, rfl⟩
  · rintro ⟨file, ⟨d, hd, hfile⟩, rfl⟩
    obtain ⟨q, hq, hsame⟩ := exists_mem_sources hd hfile
    exact ⟨q, hq, hsame⟩

end Index

theorem Site.mem_index_types {s : Site} {d : Decl} : d ∈ s.index.types ↔ d ∈ s.model.types :=
  (Index.types_perm s.model).mem_iff

end DocSite
