import DocSite.Proofs.Lookup

namespace DocSite

variable {name before : String}

def arrayMark : String := "[]"

/-- A name with array marks at its end. -/
def marked (name : String) : Nat → String
  | 0 => name
  | n + 1 => marked name n ++ arrayMark

def Blank (s : String) : Prop := ∀ c ∈ s.toList, Text.isBlank c = true

-- only the characters of the text are looked at, not all that there are
instance (s : String) : Decidable (Blank s) := List.decidableBAll _ s.toList

instance (s : String) : Decidable (EndsPlainly s) :=
  @instDecidableAnd _ _ (Option.decidableForallMem _) inferInstance

def trimStart (s : String) : String := String.ofList (s.toList.dropWhile Text.isBlank)

theorem not_endsPlainly_iff : ¬EndsPlainly name ↔ ∃ start last, name.toList = start ++ last ∧
    (last = arrayMark.toList ∨ ∃ c, last = [c] ∧ Text.isBlank c = true) := by
  rw [EndsPlainly, not_and_or, not_not]
  constructor
  · rintro (hblank | ⟨start, hmark⟩)
    · simp only [Option.mem_def, not_forall, Bool.not_eq_false] at hblank
      obtain ⟨c, hc, hblank⟩ := hblank
      obtain ⟨start, hstart⟩ := List.getLast?_eq_some_iff.1 hc
      exact ⟨start, [c], hstart, .inr ⟨c, rfl, hblank⟩⟩
    · exact ⟨start, _, hmark.symm, .inl rfl⟩
  · rintro ⟨start, last, hname, rfl | ⟨c, rfl, hblank⟩⟩
    · exact .inr ⟨start, hname.symm⟩
    · left
      intro hall
      have hplain := hall c (by rw [hname, List.getLast?_concat]; rfl)
      simp [hblank] at hplain

theorem not_endsPlainly_bareName (h : ¬EndsPlainly name) (before : String) :
    ¬EndsPlainly (bareName (before ++ name)) := by
  obtain ⟨start, last, hname, hlast⟩ := not_endsPlainly_iff.1 h
  -- neither a mark nor a blank begins with a separator
  have hhead : ∀ c ∈ last.head?, (c == separator) = false := by
    rcases hlast with rfl | ⟨b, rfl, hblank⟩
    · rintro c ⟨⟩
      decide
    · rintro c ⟨⟩
      rw [beq_eq_false_iff_ne]
      rintro rfl
      exact absurd hblank (by decide)
  refine not_endsPlainly_iff.2
    ⟨(before.toList ++ start).dropWhile (· == separator), last, ?_, hlast⟩
  rw [toList_bareName, String.toList_append, hname, ← List.append_assoc,
    Text.dropWhile_append_of_head hhead]

theorem not_endsPlainly_mark (name : String) : ¬EndsPlainly (name ++ arrayMark) :=
  not_endsPlainly_iff.2 ⟨name.toList, _, String.toList_append .., .inl rfl⟩

theorem trimStart_cases (h : ¬EndsPlainly name) :
    trimStart name = "" ∨ ¬EndsPlainly (trimStart name) := by
  obtain ⟨start, last, hname, hlast⟩ := not_endsPlainly_iff.1 h
  by_cases hnil : start.dropWhile Text.isBlank = []
  · rcases hlast with rfl | ⟨c, rfl, hblank⟩
    · refine .inr (not_endsPlainly_iff.2 ⟨[], arrayMark.toList, ?_, .inl rfl⟩)
      rw [trimStart, String.toList_ofList, hname, List.dropWhile_append, hnil]
      rfl
    · left
      rw [trimStart, hname, List.dropWhile_append, hnil, List.dropWhile_cons_of_pos hblank]
      rfl
  · refine .inr (not_endsPlainly_iff.2 ⟨start.dropWhile Text.isBlank, last, ?_, hlast⟩)
    rw [trimStart, String.toList_ofList, hname, List.dropWhile_append,
      if_neg (by simpa only [List.isEmpty_iff] using hnil)]

namespace Model

variable {m : Model} {ns : String}

theorem writtenName_blanks {after : String} (hbefore : Blank before) (hafter : Blank after)
    (name : String) : writtenName (before ++ name ++ after) = writtenName name := by
  have htrim : Text.trim (before ++ name ++ after) = Text.trim name := by
    rw [Text.trim, String.toList_append, String.toList_append,
      Text.trimWhile_append_append hbefore hafter, Text.trim]
  rw [writtenName, htrim, writtenName]

theorem writtenName_mark (name : String) : writtenName (name ++ arrayMark) = trimStart name := by
  have htrim : (Text.trim (name ++ arrayMark)).toList =
      name.toList.dropWhile Text.isBlank ++ arrayMark.toList := by
    have hhead : ∀ c ∈ arrayMark.toList.head?, Text.isBlank c = false := by
      rintro c ⟨⟩
      decide
    have hlast : ∀ c ∈ (name.toList.dropWhile Text.isBlank ++ arrayMark.toList).getLast?,
        Text.isBlank c = false := by
      rw [List.getLast?_append_of_ne_nil _ (by decide)]
      rintro c ⟨⟩
      decide
    rw [Text.trim, String.toList_ofList, String.toList_append, Text.trimWhile,
      Text.dropWhile_append_of_head hhead, Text.dropEndWhile_eq_self_of_last hlast]
  have hmark : Text.before? ['[', ']'] (Text.trim (name ++ arrayMark)).toList =
      some (name.toList.dropWhile Text.isBlank) := Text.before?_eq_some_iff.2 htrim
  simp only [writtenName, hmark, trimStart]

theorem writtenName_of_endsPlainly (h : EndsPlainly name) : writtenName name = trimStart name := by
  have hparts : String.ofList (name.toList.takeWhile Text.isBlank) ++ trimStart name ++ "" =
      name := by
    rw [← String.toList_inj]
    simp [trimStart]
  have hblank : Blank (String.ofList (name.toList.takeWhile Text.isBlank)) := by
    intro c hc
    rw [String.toList_ofList] at hc
    exact List.all_eq_true.1 List.all_takeWhile c hc
  have hbegin : BeginsPlainly (trimStart name) := by
    intro c hc
    rw [trimStart, String.toList_ofList] at hc
    have hhead := List.head?_dropWhile_not Text.isBlank name.toList
    rw [hc] at hhead
    simpa using hhead
  have hend : EndsPlainly (trimStart name) := by
    have hsuffix : (trimStart name).toList <:+ name.toList := by
      rw [trimStart, String.toList_ofList]
      exact List.dropWhile_suffix _
    refine ⟨fun c hc => ?_, fun hmark => h.2 (hmark.trans hsuffix)⟩
    obtain ⟨start, hstart⟩ := List.getLast?_eq_some_iff.1 hc
    obtain ⟨more, hmore⟩ := hsuffix
    refine h.1 c ?_
    rw [← hmore, hstart, ← List.append_assoc, List.getLast?_concat]
    rfl
  calc writtenName name
      = writtenName
          (String.ofList (name.toList.takeWhile Text.isBlank) ++ trimStart name ++ "") := by
        rw [hparts]
    _ = writtenName (trimStart name) := writtenName_blanks hblank (by simp [Blank]) _
    _ = trimStart name := writtenName_eq_self hbegin hend

/-- The type that a name means inside a namespace as it stands. -/
def meaning? (m : Model) (name ns : String) : Option Decl :=
  if name = "" then none
  else if name.toList.head? = some separator then m.find? name
  else if ns = "" then m.find? name
  else (m.find? (ns ++ separator.toString ++ name)).or (m.find? name)

theorem resolve?_eq (m : Model) (name ns : String) :
    m.resolve? name ns = m.meaning? (writtenName name) ns := rfl

theorem resolve?_mark (m : Model) (name ns : String) :
    m.resolve? (name ++ arrayMark) ns = m.meaning? (trimStart name) ns := by
  rw [resolve?_eq, writtenName_mark]

theorem find?_eq_none (hplain : ∀ d ∈ m.types, EndsPlainly d.name) (h : ¬EndsPlainly name)
    (before : String) : m.find? (before ++ name) = none := by
  rw [Option.eq_none_iff_forall_ne_some]
  intro d hd
  obtain ⟨hmem, hname⟩ := find?_eq_some_iff.1 hd
  exact not_endsPlainly_bareName h before (hname ▸ hplain d hmem)

/-- A blank or a mark at the end of a name is left by no look-up. -/
theorem meaning?_trimStart_eq_none (hplain : ∀ d ∈ m.types, EndsPlainly d.name)
    (h : ¬EndsPlainly name) : m.meaning? (trimStart name) ns = none := by
  rcases trimStart_cases h with hempty | hend
  · rw [meaning?, if_pos hempty]
  · have hfull : m.find? (trimStart name) = none := by
      rw [← String.empty_append (s := trimStart name)]
      exact find?_eq_none hplain hend ""
    rw [meaning?, hfull, find?_eq_none hplain hend]
    simp

/-- Blanks around a written name do not count, and neither does one array mark at the end of a name
that has none and no blank there. If no type has a name that ends so, marks are ignored in no other
case, unless the name means nothing without them either. -/
theorem marks_of_references (m : Model) (name ns : String) :
    (∀ before after, Blank before → Blank after →
      m.resolve? (before ++ name ++ after) ns = m.resolve? name ns) ∧
    (EndsPlainly name → m.resolve? (name ++ arrayMark) ns = m.resolve? name ns) ∧
    ((∀ d ∈ m.types, EndsPlainly d.name) → ∀ n,
      (m.resolve? (marked name (n + 1)) ns = m.resolve? name ns ↔
        (n = 0 ∧ EndsPlainly name) ∨ m.resolve? name ns = none)) := by
  have hone : EndsPlainly name → m.resolve? (name ++ arrayMark) ns = m.resolve? name ns := by
    intro hend
    rw [resolve?_mark, resolve?_eq, writtenName_of_endsPlainly hend]
  refine ⟨fun before after hbefore hafter => ?_, hone, fun hplain n => ?_⟩
  · rw [resolve?_eq, writtenName_blanks hbefore hafter, resolve?_eq]
  by_cases hplainly : n = 0 ∧ EndsPlainly name
  · obtain ⟨rfl, hend⟩ := hplainly
    exact iff_of_true (hone hend) (.inl ⟨rfl, hend⟩)
  · -- before the mark that is taken off there is a blank or another mark
    have hmark : ¬EndsPlainly (marked name n) := by
      cases n with
      | zero => exact fun hend => hplainly ⟨rfl, hend⟩
      | succ n => exact not_endsPlainly_mark _
    have hnone : m.resolve? (marked name (n + 1)) ns = none := by
      rw [marked, resolve?_mark, meaning?_trimStart_eq_none hplain hmark]
    rw [hnone, or_iff_right hplainly, eq_comm]

def foos : Model :=
  ⟨⟨"/src"⟩, [.builtin "A\\Foo" .classType, .builtin "Foo" .classType], by decide⟩

theorem marks_of_references_foos : (∀ d ∈ foos.types, EndsPlainly d.name) ∧
    foos.resolve? (" " ++ "Foo" ++ "\t") "A" = foos.resolve? "Foo" "A" ∧
    foos.resolve? ("Foo" ++ arrayMark) "A" = foos.resolve? "Foo" "A" ∧
    foos.resolve? (marked "Foo" 2) "A" ≠ foos.resolve? "Foo" "A" := by
  obtain ⟨hblanks, hone, hmarks⟩ := marks_of_references foos "Foo" "A"
  have hplain : ∀ d ∈ foos.types, EndsPlainly d.name := by decide +kernel
  have hbefore : Blank " " := by decide +kernel
  have hafter : Blank "\t" := by decide +kernel
  refine ⟨hplain, hblanks _ _ hbefore hafter, hone (by decide +kernel), fun heq => ?_⟩
  rcases (hmarks hplain 1).1 heq with ⟨hzero, -⟩ | hnone
  · simp at hzero
  · exact absurd hnone (by decide)

/-- An array of arrays of a type means nothing, and neither does an array with a blank before its
mark. -/
theorem array_of_arrays_of_foos :
    foos.resolve? "Foo[]" "A" = some (.builtin "A\\Foo" .classType) ∧
    foos.resolve? "Foo[][]" "A" = none ∧
    foos.resolve? "Foo " "A" = some (.builtin "A\\Foo" .classType) ∧
    foos.resolve? "Foo []" "A" = none := by decide

end Model
end DocSite
