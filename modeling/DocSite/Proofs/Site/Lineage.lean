import DocSite.Proofs.Site.Groups

namespace DocSite

namespace Text

variable {c : Char} {s t : List Char}

theorem joinWith_append_cons (sep a b : List Char) (start rest : List (List Char)) :
    joinWith sep (start ++ (a ++ b) :: rest) =
      joinWith sep (start ++ [a]) ++ joinWith sep (b :: rest) := by
  induction start with
  | nil => cases rest <;> simp [joinWith]
  | cons part start ih =>
    have hcons : ∀ parts, parts ≠ [] →
        joinWith sep (part :: parts) = part ++ sep ++ joinWith sep parts := by
      intro parts hne
      obtain ⟨next, parts, rfl⟩ := List.exists_cons_of_ne_nil hne
      rfl
    rw [List.cons_append, List.cons_append, hcons _ (by simp), hcons _ (by simp), ih,
      ← List.append_assoc]

/-- A text begins another just if its parts but the last come first among those of the other, and
its last part begins the next one. -/
theorem isPrefix_iff_splitAll : s <+: t ↔ ∃ start last word rest,
    splitAll c s = start ++ [last] ∧ splitAll c t = start ++ (last ++ word) :: rest := by
  constructor
  · rintro ⟨tail, rfl⟩
    obtain ⟨start, last, hs⟩ := exists_splitAll_eq_concat c s
    obtain ⟨word, rest, htail⟩ := List.exists_cons_of_ne_nil (splitAll_ne_nil c tail)
    exact ⟨start, last, word, rest, hs, splitAll_append hs htail⟩
  · rintro ⟨start, last, word, rest, hs, ht⟩
    rw [← joinWith_splitAll c s, ← joinWith_splitAll c t, hs, ht, joinWith_append_cons]
    exact List.prefix_append _ _

end Text

/-- The segments of a name, which separators divide. -/
def segmentsOf (name : String) : List (List Char) := Text.splitAll separator name.toList

/-- One of two namespaces lies in the other, or they are the same. -/
def Lineal (m n : String) : Prop := segmentsOf m <+: segmentsOf n ∨ segmentsOf n <+: segmentsOf m

instance (m n : String) : Decidable (Lineal m n) := inferInstanceAs (Decidable (_ ∨ _))

/-- A name ends inside a segment of another name: the segments before its last one agree, and its
last one is only the beginning of the next segment there. -/
def BreaksOffIn (m n : String) : Prop := ∃ start last word rest,
  word ≠ [] ∧ segmentsOf m = start ++ [last] ∧ segmentsOf n = start ++ (last ++ word) :: rest

variable {m n : String}

/-- A name begins another just if its segments do or it breaks off in the other. -/
theorem isPrefix_iff_segmentsOf : m.toList <+: n.toList ↔
    segmentsOf m <+: segmentsOf n ∨ BreaksOffIn m n := by
  rw [Text.isPrefix_iff_splitAll (c := separator)]
  constructor
  · rintro ⟨start, last, word, rest, hm, hn⟩
    by_cases hword : word = []
    · refine .inl ⟨rest, ?_⟩
      rw [segmentsOf, segmentsOf, hm, hn, hword, List.append_nil, List.append_assoc,
        List.singleton_append]
    · exact .inr ⟨start, last, word, rest, hword, hm, hn⟩
  · rintro (⟨rest, hrest⟩ | ⟨start, last, word, rest, -, hm, hn⟩)
    · obtain ⟨start, last, hm⟩ : ∃ start last, segmentsOf m = start ++ [last] :=
        Text.exists_splitAll_eq_concat ..
      refine ⟨start, last, [], rest, hm, hrest.symm.trans ?_⟩
      rw [hm, List.append_nil, List.append_assoc, List.singleton_append]
    · exact ⟨start, last, word, rest, hm, hn⟩

theorem BreaksOffIn.not_isPrefix (h : BreaksOffIn m n) : ¬segmentsOf m <+: segmentsOf n := by
  obtain ⟨start, last, word, rest, hword, hm, hn⟩ := h
  rw [hm, hn, List.prefix_append_right_inj, List.cons_prefix_cons, List.self_eq_append_right]
  exact fun h => hword h.1

/-- A name that breaks off in another is the name of no ancestor and no descendant. -/
theorem BreaksOffIn.not_lineal (h : BreaksOffIn m n) : ¬Lineal m n := by
  rintro (hmn | hnm)
  · exact h.not_isPrefix hmn
  · -- each name would begin the other, so they would be one
    have hforth : m.toList <+: n.toList := isPrefix_iff_segmentsOf.2 (.inr h)
    have hback : n.toList <+: m.toList := isPrefix_iff_segmentsOf.2 (.inl hnm)
    obtain rfl : m = n := String.toList_inj.1
      (hforth.eq_of_length (Nat.le_antisymm hforth.length_le hback.length_le))
    exact h.not_isPrefix (List.prefix_refl _)

theorem lineal_comm : Lineal m n ↔ Lineal n m := or_comm

namespace Index

variable {i : Index} {all : List Decl}

theorem mem_relatedNamespaces : m ∈ i.relatedNamespaces n ↔ m ∈ i.namespaceNames ∧
    (Lineal m n ∨ BreaksOffIn m n ∨ BreaksOffIn n m) := by
  rw [relatedNamespaces, List.mem_filter, Bool.or_eq_true, List.isPrefixOf_iff_prefix,
    List.isPrefixOf_iff_prefix, isPrefix_iff_segmentsOf, isPrefix_iff_segmentsOf, Lineal]
  refine and_congr_right fun _ => ?_
  tauto

theorem relatedNamespaces_sublist (i : Index) (n : String) :
    (i.relatedNamespaces n).Sublist i.namespaceNames := List.filter_sublist

theorem enumerates_namespaceNames (all : List Decl) :
    Text.Enumerates (ofTypes all).namespaceNames
      fun name => name ≠ "" ∧ ∃ d ∈ (ofTypes all).types, d.ns = name :=
  enumerates_groupBy ..

/-- The namespaces that are related to one, in the index of any list of types: they stand in the
order of the index, each once. They are its ancestors, its descendants and itself, and besides these
just the namespaces whose name breaks off inside a segment of its name or the other way round, as
`A` does in `AB`. So they are the ancestors and descendants alone just if the index has no such
name. -/
theorem relatedNamespaces_by_segments (all : List Decl) (n : String) :
    let i := ofTypes all
    (i.relatedNamespaces n).Sublist i.namespaceNames ∧
    ((i.relatedNamespaces n).Pairwise fun a b => Text.compareNames a b = .lt) ∧
    (i.relatedNamespaces n).Nodup ∧
    (∀ m, m ∈ i.relatedNamespaces n ↔ m ∈ i.namespaceNames ∧
      (Lineal m n ∨ BreaksOffIn m n ∨ BreaksOffIn n m)) ∧
    (∀ m, BreaksOffIn m n ∨ BreaksOffIn n m → ¬Lineal m n) ∧
    ((∀ m, m ∈ i.relatedNamespaces n ↔ m ∈ i.namespaceNames ∧ Lineal m n) ↔
      ∀ m ∈ i.namespaceNames, ¬BreaksOffIn m n ∧ ¬BreaksOffIn n m) := by
  intro i
  have hsub := relatedNamespaces_sublist i n
  have hnames := enumerates_namespaceNames all
  have hapart : ∀ m, BreaksOffIn m n ∨ BreaksOffIn n m → ¬Lineal m n := by
    rintro m (h | h)
    · exact h.not_lineal
    · exact fun hlineal => h.not_lineal (lineal_comm.1 hlineal)
  refine ⟨hsub, hnames.ascending.sublist hsub, hnames.nodup.sublist hsub,
    fun m => mem_relatedNamespaces, hapart, fun h m hm => ?_, fun h m => ?_⟩
  · rw [← not_or]
    intro hbreaks
    exact hapart m hbreaks ((h m).1 (mem_relatedNamespaces.2 ⟨hm, .inr hbreaks⟩)).2
  · rw [mem_relatedNamespaces]
    refine and_congr_right fun hm => or_iff_left ?_
    rw [not_or]
    exact h m hm

/-- Of two namespaces side by side, one is related to the other if its name begins the other. -/
theorem relatedNamespaces_of_siblings :
    let i := ofTypes [Decl.builtin "A\\X" .classType, Decl.builtin "AB\\X" .classType]
    "A" ∈ i.namespaceNames ∧ "AB" ∈ i.relatedNamespaces "A" ∧
      ¬segmentsOf "AB" <+: segmentsOf "A" ∧ ¬segmentsOf "A" <+: segmentsOf "AB" := by
  intro i
  have hfirst : "A" ∈ i.namespaceNames :=
    mem_namespaceNames.2 ⟨by decide, Decl.builtin "A\\X" .classType,
      mem_types_iff.2 (by decide), by decide⟩
  have hsecond : "AB" ∈ i.namespaceNames :=
    mem_namespaceNames.2 ⟨by decide, Decl.builtin "AB\\X" .classType,
      mem_types_iff.2 (by decide), by decide⟩
  have hbreaks : BreaksOffIn "A" "AB" := ⟨[], ['A'], ['B'], [], by simp, by decide, by decide⟩
  exact ⟨hfirst, mem_relatedNamespaces.2 ⟨hsecond, .inr (.inr hbreaks)⟩, by decide, by decide⟩

end Index
end DocSite
