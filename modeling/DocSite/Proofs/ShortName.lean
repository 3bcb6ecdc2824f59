import DocSite.Proofs.Decl
import DocSite.Site.Label

namespace DocSite

variable {ns name short : String}

/-- A name lies directly inside a namespace, under a short name. -/
structure LiesIn (ns name short : String) : Prop where
  joined : bareName name = ns ++ separator.toString ++ short
  ne_empty : short ≠ ""
  no_separator : separator ∉ short.toList

theorem toList_append_separator (ns short : String) :
    (ns ++ separator.toString ++ short).toList = ns.toList ++ separator :: short.toList := by
  rw [String.append_assoc, String.toList_append, toList_separator_append]

/-- A bare name begins with no separator, so nothing lies directly inside the empty name. -/
theorem LiesIn.ns_ne_empty (h : LiesIn ns name short) : ns ≠ "" := by
  rintro rfl
  apply head?_bareName name
  rw [h.joined, toList_append_separator]
  rfl

theorem LiesIn.splitName_eq (h : LiesIn ns name short) :
    splitName (bareName name) = (ns, short) := by
  have hcut := Text.splitLast_eq_some_iff.2
    ⟨(congrArg String.toList h.joined).trans (toList_append_separator ns short), h.no_separator⟩
  rw [splitName, hcut]
  simp only [String.ofList_toList]

theorem liesIn_of_splitName (hns : ns ≠ "") (h : (splitName (bareName name)).1 = ns)
    (hshort : (splitName (bareName name)).2 ≠ "") :
    LiesIn ns name (splitName (bareName name)).2 := by
  have hsep : separator ∈ (bareName name).toList := by
    refine Classical.byContradiction fun hno => ?_
    rw [splitName_of_not_mem hno] at h
    exact hns h.symm
  obtain ⟨hlast, hname⟩ := splitName_of_mem hsep
  rw [h] at hname
  exact ⟨hname, hshort, hlast⟩

theorem LiesIn.shortIn_eq (h : LiesIn ns name short) : shortIn ns name = short := by
  have hafter : Text.after? (ns.toList ++ [separator]) (bareName name).toList =
      some short.toList := by
    rw [Text.after?_eq_some_iff, h.joined, toList_append_separator, List.append_assoc,
      List.singleton_append]
  have hne : short.toList.isEmpty = false := by simpa using h.ne_empty
  have hno : short.toList.contains separator = false := by simpa using h.no_separator
  simp only [shortIn, if_neg h.ns_ne_empty, hafter, hne, hno, Bool.or_self, Bool.false_eq_true,
    if_false, String.ofList_toList]

/-- What is shown is the bare name, or the short name under which it lies inside the namespace. -/
theorem shortIn_cases (ns name : String) :
    shortIn ns name = bareName name ∨ LiesIn ns name (shortIn ns name) := by
  unfold shortIn
  dsimp only
  split
  · exact .inl rfl
  split
  case h_2 => exact .inl rfl
  rename_i rest hafter
  split
  · exact .inl rfl
  rename_i hrest
  rw [Bool.or_eq_true, not_or, List.isEmpty_iff, List.contains_iff_mem] at hrest
  refine .inr ⟨?_, by simpa using hrest.1, by simpa using hrest.2⟩
  rw [← String.toList_inj, toList_append_separator, Text.after?_eq_some_iff.1 hafter,
    String.toList_ofList, List.append_assoc, List.singleton_append]

/-- A name that lies inside a namespace is longer than its short name. -/
theorem LiesIn.ne_bareName (h : LiesIn ns name short) : short ≠ bareName name := by
  intro heq
  have hlen := congrArg List.length (toList_append_separator ns short)
  rw [← h.joined, ← heq, List.length_append, List.length_cons] at hlen
  omega

theorem shortIn_ne_bareName_iff : shortIn ns name ≠ bareName name ↔
    ns ≠ "" ∧ (splitName (bareName name)).1 = ns ∧ (splitName (bareName name)).2 ≠ "" := by
  constructor
  · intro h
    have hlies := (shortIn_cases ns name).resolve_left h
    rw [hlies.splitName_eq]
    exact ⟨hlies.ns_ne_empty, rfl, hlies.ne_empty⟩
  · rintro ⟨hns, hfirst, hshort⟩
    have hlies := liesIn_of_splitName hns hfirst hshort
    rw [hlies.shortIn_eq]
    exact hlies.ne_bareName

theorem splitName_snd_eq (h : (splitName (bareName name)).1 = "") :
    (splitName (bareName name)).2 = bareName name := by
  by_cases hsep : separator ∈ (bareName name).toList
  · obtain ⟨-, hname⟩ := splitName_of_mem hsep
    rw [h, String.empty_append] at hname
    refine absurd ?_ (head?_bareName name)
    rw [hname, toList_separator_append, List.head?_cons]
  · rw [splitName_of_not_mem hsep]

/-- Inside a namespace a name is shown as the second part of its split at the last separator if the
first part is the namespace and the second is not empty, and as it stands otherwise, leading
separators apart. It is shortened just then, if the namespace has a name; and then the namespace and
a separator before what is shown give the name back, and what is shown has no separator. -/
theorem shortIn_by_splitName (ns name : String) :
    let bare := bareName name
    shortIn ns name =
      (if (splitName bare).1 = ns ∧ (splitName bare).2 ≠ "" then (splitName bare).2 else bare) ∧
    (shortIn ns name ≠ bare ↔
      ns ≠ "" ∧ (splitName bare).1 = ns ∧ (splitName bare).2 ≠ "") ∧
    (shortIn ns name ≠ bare → ns ++ separator.toString ++ shortIn ns name = bare ∧
      separator ∉ (shortIn ns name).toList) := by
  intro bare
  refine ⟨?_, shortIn_ne_bareName_iff, fun h => ?_⟩
  · split
    · rename_i h
      by_cases hns : ns = ""
      · have hsame : shortIn ns name = bare :=
          Classical.not_not.1 fun hne => (shortIn_ne_bareName_iff.1 hne).1 hns
        rw [hsame, splitName_snd_eq (h.1.trans hns)]
      · exact (liesIn_of_splitName hns h.1 h.2).shortIn_eq
    · rename_i h
      exact Classical.not_not.1 fun hne => h (shortIn_ne_bareName_iff.1 hne).2
  · have hlies := (shortIn_cases ns name).resolve_left h
    exact ⟨hlies.joined.symm, hlies.no_separator⟩

/-- A namespace that ends in a separator, one that is a part of a segment, and one with another
below it. -/
example : shortIn "A\\" "\\A\\\\Foo" = "Foo" ∧ shortIn "A" "AB\\Foo" = "AB\\Foo" ∧
    shortIn "A" "A\\B\\Foo" = "A\\B\\Foo" := by decide

end DocSite
