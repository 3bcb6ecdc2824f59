import DocSite.FileTree.Basic
import DocSite.Proofs.Text.Order

namespace DocSite
open Std

theorem compareLocations_eq_compareLex (a b : Location) :
    compareLocations a b = List.compareLex Text.compareText a b := by
  induction a generalizing b with
  | nil => cases b <;> rfl
  | cons x a ih =>
    cases b with
    | nil => rfl
    | cons y b => simp only [compareLocations, List.compareLex_cons_cons, ih]

instance : TransCmp compareLocations where
  eq_swap := by
    intro a b
    simp only [compareLocations_eq_compareLex]
    exact OrientedCmp.eq_swap
  isLE_trans := by
    intro a b c hab hbc
    simp only [compareLocations_eq_compareLex] at *
    exact TransCmp.isLE_trans hab hbc

instance : LawfulEqCmp compareLocations where
  eq_of_compare := by
    intro a b h
    rw [compareLocations_eq_compareLex] at h
    exact LawfulEqCmp.eq_of_compare h

theorem compareLocations_append {loc names : Location} (hne : names ≠ []) :
    compareLocations loc (loc ++ names) = .lt := by
  induction loc with
  | nil =>
    cases names with
    | nil => exact absurd rfl hne
    | cons name names => rfl
  | cons name loc ih =>
    have hself : Text.compareText name name = .eq := ReflCmp.compare_self
    rw [List.cons_append, compareLocations, hself, ih]
    rfl

/-- A name that an entry of a directory can have. -/
def IsName (s : String) : Prop := s ≠ "" ∧ s ≠ "." ∧ s ≠ ".." ∧ '/' ∉ s.toList

instance (s : String) : Decidable (IsName s) := inferInstanceAs (Decidable (_ ∧ _))

namespace FileTree

/-- What every tree of files satisfies. The order of its entries is the one in which the system
lists them. -/
structure WellFormed (t : FileTree) : Prop where
  ordered : t.entries.Pairwise fun a b => ¬b.1 <+: a.1
  named : ∀ e ∈ t.entries, e.1 ≠ [] ∧ ∀ name ∈ e.1, IsName name
  parents : ∀ e ∈ t.entries, t.isDirAt e.1.dropLast = true

/-- A well-formed tree in ascending order, into which entries can be put. -/
structure Sorted (t : FileTree) : Prop extends WellFormed t where
  sorted : t.entries.Pairwise fun a b => compareLocations a.1 b.1 = .lt

variable {t : FileTree} {loc l : Location} {e : Entry}

@[simp] theorem entryAt_nil (t : FileTree) : t.entryAt [] = some .dir := rfl

theorem isDirAt_iff : t.isDirAt loc = true ↔ t.entryAt loc = some .dir := by
  unfold isDirAt
  split <;> simp_all

theorem lookup_cons_eq_ite (f : Location × Entry) (entries : List (Location × Entry)) :
    (f :: entries).lookup l = if l = f.1 then some f.2 else entries.lookup l := by
  obtain ⟨k, b⟩ := f
  rw [List.lookup_cons]
  by_cases h : l = k
  · simp [h]
  · simp [beq_false_of_ne h, h]

theorem lookup_insertEntry (entries : List (Location × Entry)) :
    (insertEntry loc e entries).lookup l = if l = loc then some e else entries.lookup l := by
  induction entries with
  | nil => simp [insertEntry, lookup_cons_eq_ite]
  | cons f entries ih =>
    simp only [insertEntry]
    split
    · exact lookup_cons_eq_ite _ _
    · rename_i h
      obtain rfl : loc = f.1 := LawfulEqCmp.eq_of_compare h
      simp only [lookup_cons_eq_ite]
      split <;> rfl
    · rename_i h
      have hne : f.1 ≠ loc := by
        rintro rfl
        simp [ReflCmp.compare_self] at h
      simp only [lookup_cons_eq_ite, ih]
      by_cases hl : l = f.1
      · simp [hl, hne]
      · simp [hl]

theorem lookup_filter (keep : Location → Bool) (entries : List (Location × Entry)) :
    (entries.filter fun f => keep f.1).lookup l = if keep l then entries.lookup l else none := by
  induction entries with
  | nil => simp
  | cons f entries ih =>
    rw [List.filter_cons, lookup_cons_eq_ite]
    split
    · rw [lookup_cons_eq_ite, ih]
      by_cases hl : l = f.1 <;> simp_all
    · rw [ih]
      by_cases hl : l = f.1 <;> simp_all

theorem mem_insertEntry {entries : List (Location × Entry)} {f : Location × Entry}
    (h : f ∈ insertEntry loc e entries) : f = (loc, e) ∨ f ∈ entries := by
  induction entries with
  | nil => exact .inl (List.mem_singleton.1 h)
  | cons g entries ih =>
    simp only [insertEntry] at h
    split at h <;> simp only [List.mem_cons] at h ⊢
    · exact h
    · exact h.imp_right .inr
    · rcases h with h | h
      · exact .inr (.inl h)
      · exact (ih h).imp_right .inr

theorem sorted_insertEntry {entries : List (Location × Entry)}
    (h : entries.Pairwise fun a b => compareLocations a.1 b.1 = .lt) :
    (insertEntry loc e entries).Pairwise fun a b => compareLocations a.1 b.1 = .lt := by
  induction entries with
  | nil => exact List.pairwise_singleton _ _
  | cons f entries ih =>
    obtain ⟨hf, hrest⟩ := List.pairwise_cons.1 h
    simp only [insertEntry]
    split
    · rename_i hlt
      refine List.pairwise_cons.2 ⟨fun g hg => ?_, h⟩
      rcases List.mem_cons.1 hg with rfl | hg
      · exact hlt
      · exact TransCmp.lt_trans hlt (hf g hg)
    · rename_i heq
      obtain rfl : loc = f.1 := LawfulEqCmp.eq_of_compare heq
      exact List.pairwise_cons.2 ⟨hf, hrest⟩
    · rename_i hgt
      refine List.pairwise_cons.2 ⟨fun g hg => ?_, ih hrest⟩
      -- the tail holds the new entry, which comes after `f`, and the old ones
      rcases mem_insertEntry hg with rfl | hg
      · exact OrientedCmp.lt_of_gt hgt
      · exact hf g hg

theorem ordered_of_sorted {entries : List (Location × Entry)}
    (h : entries.Pairwise fun a b => compareLocations a.1 b.1 = .lt) :
    entries.Pairwise fun a b => ¬b.1 <+: a.1 := by
  refine h.imp fun {a b} hlt hle => ?_
  obtain ⟨names, hnames⟩ := hle
  rw [← hnames] at hlt
  by_cases hnil : names = []
  · simp [hnil, ReflCmp.compare_self] at hlt
  · have hback : compareLocations b.1 (b.1 ++ names) = .lt := compareLocations_append hnil
    simp [OrientedCmp.gt_of_lt hback] at hlt

theorem lookup_eq_some_of_mem {entries : List (Location × Entry)}
    (h : entries.Pairwise fun a b => ¬b.1 <+: a.1) (hmem : (loc, e) ∈ entries) :
    entries.lookup loc = some e := by
  induction entries with
  | nil => simp at hmem
  | cons f entries ih =>
    obtain ⟨hf, hrest⟩ := List.pairwise_cons.1 h
    rw [lookup_cons_eq_ite]
    rcases List.mem_cons.1 hmem with rfl | hmem
    · simp
    · have hne : loc ≠ f.1 := by
        rintro rfl
        exact hf _ hmem (List.prefix_refl _)
      rw [if_neg hne, ih hrest hmem]

theorem entryAt_put (hloc : loc ≠ []) :
    (t.put loc e).entryAt l = if l = loc then some e else t.entryAt l := by
  unfold entryAt put
  by_cases hl : l = []
  · simp [hl, hloc.symm]
  · simp [hl, lookup_insertEntry]

theorem entryAt_erase (hloc : loc ≠ []) :
    (t.erase loc).entryAt l = if l = loc then none else t.entryAt l := by
  unfold entryAt erase
  by_cases hl : l = []
  · simp [hl, hloc.symm]
  · simp [hl, lookup_filter (· != loc)]

theorem mem_of_entryAt (hloc : loc ≠ []) (h : t.entryAt loc = some e) : (loc, e) ∈ t.entries := by
  simp only [entryAt, hloc, if_false] at h
  obtain ⟨l₁, l₂, hl, -⟩ := List.lookup_eq_some_iff.1 h
  simp [hl]

theorem mem_below_iff {f : Location × Entry} :
    f ∈ t.below loc ↔ f ∈ t.entries ∧ loc <+: f.1 ∧ f.1 ≠ loc := by
  simp [below, List.isPrefixOf_iff_prefix]

theorem entryAt_eq_none_of_below_eq_nil (h : t.below l = []) (hle : l <+: loc) (hne : loc ≠ l) :
    t.entryAt loc = none := by
  cases he : t.entryAt loc with
  | none => rfl
  | some e =>
    have hloc : loc ≠ [] := by
      rintro rfl
      exact hne (List.prefix_nil.1 hle).symm
    have hmem : (loc, e) ∈ t.below l := mem_below_iff.2 ⟨mem_of_entryAt hloc he, hle, hne⟩
    simp [h] at hmem

namespace WellFormed

theorem entryAt_of_mem (hw : t.WellFormed) (h : (loc, e) ∈ t.entries) :
    t.entryAt loc = some e := by
  simp only [entryAt, (hw.named _ h).1, if_false]
  exact lookup_eq_some_of_mem hw.ordered h

theorem mem_below_iff (hw : t.WellFormed) :
    (l, e) ∈ t.below loc ↔ t.entryAt l = some e ∧ loc <+: l ∧ l ≠ loc := by
  rw [FileTree.mem_below_iff]
  refine and_congr_left fun ⟨hle, hne⟩ => ⟨hw.entryAt_of_mem, mem_of_entryAt ?_⟩
  rintro rfl
  exact hne (List.prefix_nil.1 hle).symm

theorem isName (hw : t.WellFormed) (h : t.entryAt loc = some e) {name : String}
    (hname : name ∈ loc) : IsName name :=
  (hw.named _ (mem_of_entryAt (List.ne_nil_of_mem hname) h)).2 name hname

theorem isDirAt_dropLast (hw : t.WellFormed) (h : t.entryAt loc = some e) :
    t.isDirAt loc.dropLast = true := by
  by_cases hloc : loc = []
  · subst hloc
    rfl
  · exact hw.parents _ (mem_of_entryAt hloc h)

/-- Whatever stands above an entry is a directory. -/
theorem isDirAt_of_append (hw : t.WellFormed) {names : List String} (hne : names ≠ [])
    (h : t.entryAt (loc ++ names) = some e) : t.isDirAt loc = true := by
  induction names generalizing loc with
  | nil => exact absurd rfl hne
  | cons name names ih =>
    -- the first name stands in `loc`: as the entry itself, or as a directory above it
    have hchild : ∃ f, t.entryAt (loc ++ [name]) = some f := by
      by_cases hn : names = []
      · exact ⟨e, hn ▸ h⟩
      · exact ⟨.dir, isDirAt_iff.1 (ih hn (by rwa [List.append_assoc]))⟩
    obtain ⟨f, hf⟩ := hchild
    simpa using hw.isDirAt_dropLast hf

theorem isDirAt_left (hw : t.WellFormed) {names : List String}
    (h : t.isDirAt (loc ++ names) = true) : t.isDirAt loc = true := by
  by_cases hne : names = []
  · rwa [hne, List.append_nil] at h
  · exact hw.isDirAt_of_append hne (isDirAt_iff.1 h)

theorem isDirAt_of_prefix (hw : t.WellFormed) (h : t.entryAt loc = some e) (hle : l <+: loc)
    (hne : l ≠ loc) : t.isDirAt l = true := by
  obtain ⟨names, rfl⟩ := hle
  exact hw.isDirAt_of_append (by simpa using hne) h

theorem erase (hw : t.WellFormed) (hloc : loc ≠ []) (hleaf : t.below loc = []) :
    (t.erase loc).WellFormed where
  ordered := hw.ordered.filter _
  named f hf := hw.named f (List.mem_filter.1 hf).1
  parents f hf := by
    obtain ⟨hf, hne⟩ := List.mem_filter.1 hf
    rw [isDirAt_iff, entryAt_erase hloc, if_neg]
    · exact isDirAt_iff.1 (hw.parents f hf)
    · intro heq
      -- the directory that is erased would have `f` below it
      have hbelow : f ∈ t.below loc := by
        refine FileTree.mem_below_iff.2 ⟨hf, ?_, by simpa using hne⟩
        rw [← heq]
        exact List.dropLast_prefix f.1
      simp [hleaf] at hbelow

theorem below_eq_nil (hw : t.WellFormed) (h : t.entryAt loc = some e) (he : e ≠ .dir) :
    t.below loc = [] := by
  refine List.eq_nil_iff_forall_not_mem.2 fun ⟨l, f⟩ hf => ?_
  obtain ⟨hl, hle, hne⟩ := hw.mem_below_iff.1 hf
  have hdir := isDirAt_iff.1 (hw.isDirAt_of_prefix hl hle hne.symm)
  rw [h] at hdir
  exact he (Option.some.inj hdir)

end WellFormed

theorem Sorted.put (hs : t.Sorted) (hloc : loc ≠ []) (hnames : ∀ name ∈ loc, IsName name)
    (hparent : t.isDirAt loc.dropLast = true) (hdir : t.isDirAt loc = true → e = .dir) :
    (t.put loc e).Sorted where
  ordered := ordered_of_sorted (sorted_insertEntry hs.sorted)
  named f hf := by
    rcases mem_insertEntry hf with rfl | hf
    · exact ⟨hloc, hnames⟩
    · exact hs.named f hf
  parents f hf := by
    -- a directory at `loc` is replaced by a directory only
    have hkeep : ∀ l, t.isDirAt l = true → (t.put loc e).isDirAt l = true := by
      intro l hl
      rw [isDirAt_iff, entryAt_put hloc]
      split
      · rename_i heq
        rw [hdir (heq ▸ hl)]
      · exact isDirAt_iff.1 hl
    rcases mem_insertEntry hf with rfl | hf
    · exact hkeep _ hparent
    · exact hkeep _ (hs.parents f hf)
  sorted := sorted_insertEntry hs.sorted

end FileTree
end DocSite
