import DocSite.Decl
import DocSite.Proofs.Text.Cut

namespace DocSite

variable {name : String} {kind : TypeKind}

def separators (n : Nat) : String := String.ofList (List.replicate n separator)

theorem toList_bareName (name : String) :
    (bareName name).toList = name.toList.dropWhile (· == separator) := String.toList_ofList

theorem head?_bareName (name : String) : (bareName name).toList.head? ≠ some separator := by
  intro h
  have hhead := List.head?_dropWhile_not (· == separator) name.toList
  rw [← toList_bareName, h] at hhead
  simp at hhead

theorem bareName_eq_self_iff : bareName name = name ↔ name.toList.head? ≠ some separator := by
  refine ⟨fun h => h ▸ head?_bareName name, fun h => ?_⟩
  rw [← String.toList_inj, toList_bareName]
  refine Text.dropWhile_eq_self_of_head fun c hc => ?_
  rw [beq_eq_false_iff_ne]
  rintro rfl
  exact h hc

theorem bareName_separators_append (n : Nat) (name : String) :
    bareName (separators n ++ name) = bareName name := by
  rw [← String.toList_inj, toList_bareName, String.toList_append, separators, String.toList_ofList,
    Text.dropWhile_append_of_all (by simp), toList_bareName]

theorem toList_separator_append (name : String) :
    (separator.toString ++ name).toList = separator :: name.toList := by
  simp [Char.toString]

theorem bareName_separator_append (name : String) :
    bareName (separator.toString ++ name) = bareName name :=
  bareName_separators_append 1 name

theorem trimChar_separators (m n : Nat) (ns : String) :
    Text.trimChar separator (separators m ++ ns ++ separators n) =
      Text.trimChar separator ns := by
  rw [Text.trimChar, String.toList_append, String.toList_append, separators, separators,
    String.toList_ofList, String.toList_ofList,
    Text.trimWhile_append_append (by simp) (by simp), Text.trimChar]

theorem splitName_of_not_mem (h : separator ∉ name.toList) : splitName name = ("", name) := by
  rw [splitName, Text.splitLast_eq_none_iff.2 h]

/-- The namespace ends at the last separator, so the two parts give the name back. -/
theorem splitName_of_mem (h : separator ∈ name.toList) :
    separator ∉ (splitName name).2.toList ∧
      name = (splitName name).1 ++ separator.toString ++ (splitName name).2 := by
  cases hcut : Text.splitLast separator name.toList with
  | none => exact absurd h (Text.splitLast_eq_none_iff.1 hcut)
  | some cut =>
    obtain ⟨hname, hshort⟩ := Text.splitLast_eq_some_iff.1 hcut
    rw [splitName, hcut]
    refine ⟨by simpa using hshort, ?_⟩
    rw [← String.toList_inj, hname]
    simp [Char.toString]

theorem separator_not_mem_shortName (name : String) : separator ∉ (splitName name).2.toList := by
  by_cases h : separator ∈ name.toList
  · exact (splitName_of_mem h).1
  · rwa [splitName_of_not_mem h]

namespace Decl

theorem builtin_name : (builtin name kind).name = bareName name := by
  simp only [builtin]

theorem builtin_shortName : (builtin name kind).shortName = (splitName (bareName name)).2 := by
  simp only [builtin]

theorem builtin_ns : (builtin name kind).ns = (splitName (bareName name)).1 := by
  simp only [builtin]

end Decl

end DocSite
