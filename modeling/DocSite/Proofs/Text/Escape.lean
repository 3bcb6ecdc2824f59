import DocSite.Text.Escape

namespace DocSite.Text

variable {marks s : List Char}

def Lacks (marks s : List Char) : Prop := ∀ c ∈ s, c ∉ marks

theorem lacks_of_all (h : (s.all fun c => !marks.contains c) = true) : Lacks marks s := by
  intro c hc
  simpa using List.all_eq_true.1 h c hc

theorem lacks_singleton {c : Char} : Lacks marks [c] ↔ c ∉ marks := List.forall_mem_singleton

theorem Lacks.flatMap {f : Char → List Char} (hf : ∀ c, Lacks marks (f c)) (s : List Char) :
    Lacks marks (s.flatMap f) := by
  intro c hc
  obtain ⟨d, -, hc⟩ := List.mem_flatMap.1 hc
  exact hf d c hc

/-- A text without angle brackets and quotation marks. -/
def Harmless (s : List Char) : Prop := Lacks ['<', '>', '"', '\''] s

def entities : List (List Char) :=
  ["&amp;".toList, "&lt;".toList, "&gt;".toList, "&quot;".toList, "&#x27;".toList]

/-- A character is written as an entity, or stands for itself and has no meaning in HTML. -/
theorem escapeChar_cases (c : Char) :
    escapeChar c ∈ entities ∨ escapeChar c = [c] ∧ c ∉ ['&', '<', '>', '"', '\''] := by
  unfold escapeChar
  split
  · exact .inl (by decide)
  · exact .inl (by decide)
  · exact .inl (by decide)
  · exact .inl (by decide)
  · exact .inl (by decide)
  · rename_i hamp hlt hgt hquote hapostrophe
    refine .inr ⟨rfl, ?_⟩
    simp only [List.mem_cons, List.not_mem_nil, or_false, not_or]
    exact ⟨hamp, hlt, hgt, hquote, hapostrophe⟩

theorem harmless_escapeHtml (s : String) : Harmless (escapeHtml s).toList := by
  rw [escapeHtml, String.toList_ofList]
  refine Lacks.flatMap (fun c => ?_) s.toList
  rcases escapeChar_cases c with hin | ⟨hself, hplain⟩
  · have hall : ∀ entity ∈ entities,
        (entity.all fun c => !(['<', '>', '"', '\''].contains c)) = true := by decide
    exact lacks_of_all (hall _ hin)
  · rw [hself, lacks_singleton]
    exact fun h => hplain (.tail _ h)

theorem escapeHtml_intercalate {sep : String} (hsep : escapeHtml sep = sep) (parts : List String) :
    escapeHtml (sep.intercalate parts) = sep.intercalate (parts.map escapeHtml) := by
  induction parts with
  | nil => rfl
  | cons part parts ih =>
    cases parts with
    | nil => simp
    | cons next parts =>
      rw [String.intercalate_cons_cons, escapeHtml_append, escapeHtml_append, hsep, ih,
        List.map_cons, List.map_cons, List.map_cons, String.intercalate_cons_cons]

/-- Reads the five entities; any other character stands for itself. -/
def unescapeChars : List Char → List Char
  | '&' :: 'a' :: 'm' :: 'p' :: ';' :: s => '&' :: unescapeChars s
  | '&' :: 'l' :: 't' :: ';' :: s => '<' :: unescapeChars s
  | '&' :: 'g' :: 't' :: ';' :: s => '>' :: unescapeChars s
  | '&' :: 'q' :: 'u' :: 'o' :: 't' :: ';' :: s => '"' :: unescapeChars s
  | '&' :: '#' :: 'x' :: '2' :: '7' :: ';' :: s => '\'' :: unescapeChars s
  | c :: s => c :: unescapeChars s
  | [] => []

def unescapeHtml (s : String) : String := String.ofList (unescapeChars s.toList)

/-- An escaped character is read back, whatever follows. -/
theorem unescapeChars_escapeChar_append (c : Char) (s : List Char) :
    unescapeChars (escapeChar c ++ s) = c :: unescapeChars s := by
  unfold escapeChar
  split
  · rfl
  · rfl
  · rfl
  · rfl
  · rfl
  · rename_i hamp _ _ _ _
    -- a character that begins no entity is read alone
    rw [List.singleton_append, unescapeChars] <;> exact fun _ hc => absurd hc hamp

theorem unescapeHtml_escapeHtml (s : String) : unescapeHtml (escapeHtml s) = s := by
  have hchars : ∀ s : List Char, unescapeChars (s.flatMap escapeChar) = s := by
    intro s
    induction s with
    | nil => rfl
    | cons c s ih => rw [List.flatMap_cons, unescapeChars_escapeChar_append, ih]
  rw [unescapeHtml, escapeHtml, String.toList_ofList, hchars, String.ofList_toList]

/-- Only the first character of an entity is an ampersand. -/
theorem exists_tail_of_mem_entities {entity : List Char} (h : entity ∈ entities) :
    ∃ tail, entity = '&' :: tail ∧ '&' ∉ tail := by
  have hall : ∀ entity ∈ entities, entity.head? = some '&' ∧ '&' ∉ entity.tail := by decide
  obtain ⟨hhead, htail⟩ := hall entity h
  obtain ⟨tail, rfl⟩ := List.head?_eq_some_iff.1 hhead
  exact ⟨tail, rfl, htail⟩

theorem eq_nil_of_escapeChar {c : Char} {before after : List Char}
    (h : escapeChar c = before ++ '&' :: after) : before = [] ∧ escapeChar c ∈ entities := by
  rcases escapeChar_cases c with hin | ⟨hself, hplain⟩
  · refine ⟨?_, hin⟩
    obtain ⟨tail, hentity, htail⟩ := exists_tail_of_mem_entities hin
    rw [hentity] at h
    cases before with
    | nil => rfl
    | cons d before =>
      obtain ⟨-, rfl⟩ := List.cons.inj h
      exact absurd (List.mem_append_right _ (.head _)) htail
  · have hmem : '&' ∈ escapeChar c := h ▸ List.mem_append_right _ (.head _)
    rw [hself] at hmem
    exact absurd (List.mem_singleton.1 hmem ▸ .head _) hplain

/-- An ampersand in an escaped text begins the entity of a character of the text: what comes before
it is the escaped text before that character, and so is what follows the entity. -/
theorem exists_entity_of_ampersand {s before after : List Char}
    (h : s.flatMap escapeChar = before ++ '&' :: after) :
    ∃ x c y, s = x ++ c :: y ∧ escapeChar c ∈ entities ∧ before = x.flatMap escapeChar ∧
      '&' :: after = escapeChar c ++ y.flatMap escapeChar := by
  induction s generalizing before with
  | nil => simp at h
  | cons c s ih =>
    rw [List.flatMap_cons] at h
    -- the ampersand stands behind what the first character is written as, or in it
    rcases List.append_eq_append_iff.1 h with ⟨rest, rfl, hrest⟩ | ⟨rest, hrest, hafter⟩
    · obtain ⟨x, d, y, rfl, hin, rfl, hd⟩ := ih hrest
      exact ⟨c :: x, d, y, rfl, hin, rfl, hd⟩
    · cases rest with
      | nil =>
        rw [List.append_nil] at hrest
        have hstart : s.flatMap escapeChar = [] ++ '&' :: after := hafter.symm
        obtain ⟨x, d, y, rfl, hin, hx, hd⟩ := ih hstart
        refine ⟨c :: x, d, y, rfl, hin, ?_, hd⟩
        rw [List.flatMap_cons, ← hx, List.append_nil, hrest]
      | cons a rest =>
        obtain ⟨rfl, -⟩ := List.cons.inj hafter
        obtain ⟨rfl, hin⟩ := eq_nil_of_escapeChar hrest
        exact ⟨[], c, s, rfl, hin, rfl, hrest ▸ hafter⟩

theorem escapeHtml_injective {a b : String} (h : escapeHtml a = escapeHtml b) : a = b := by
  rw [← unescapeHtml_escapeHtml a, h, unescapeHtml_escapeHtml]

/-- An escaped text has no angle brackets and quotation marks, and each ampersand in it begins the
entity of a character of the text. Escaping respects concatenation and loses nothing: reading the
entities gives the text back, so different texts stay different, whatever entities they show. -/
theorem escapeHtml_safe_and_lossless (a b : String) :
    Harmless (escapeHtml a).toList ∧
    (∀ before after, (escapeHtml a).toList = before ++ '&' :: after →
      ∃ x c y, a.toList = x ++ c :: y ∧ escapeChar c ∈ entities ∧
        before = x.flatMap escapeChar ∧ '&' :: after = escapeChar c ++ y.flatMap escapeChar) ∧
    escapeHtml (a ++ b) = escapeHtml a ++ escapeHtml b ∧
    unescapeHtml (escapeHtml a) = a ∧
    (escapeHtml a = escapeHtml b ↔ a = b) := by
  refine ⟨harmless_escapeHtml a, fun before after h => ?_, escapeHtml_append a b,
    unescapeHtml_escapeHtml a, escapeHtml_injective, congrArg escapeHtml⟩
  rw [escapeHtml, String.toList_ofList] at h
  exact exists_entity_of_ampersand h

/-- An entity in a text is not taken for what it stands for. -/
example : escapeHtml "&lt;" = "&amp;lt;" ∧ escapeHtml "<" = "&lt;" := by decide

end DocSite.Text
