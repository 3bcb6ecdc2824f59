import DocSite.Proofs.Text.Cut
import DocSite.Proofs.Text.Markup
import DocSite.Site.Highlight
import Mathlib.Data.List.Nodup

namespace DocSite

namespace Highlight

open Text (Markup Harmless)

variable {source line row : String} {s rest : List Char} {lines : List String} {n k : Nat}

/-- The lines of a text: each but the last ends in a line break, with at most one carriage return
before it that does not belong to the line; the last one ends with the text and is not empty. -/
inductive Lined : List Char → List String → Prop
  | nil : Lined [] []
  | last {line : String} : line ≠ "" → '\n' ∉ line.toList → Lined line.toList [line]
  | broken {line : String} {rest : List Char} {lines : List String} : '\n' ∉ line.toList →
      line.toList.getLast? ≠ some '\r' → Lined rest lines →
      Lined (line.toList ++ '\n' :: rest) (line :: lines)
  | returned {line : String} {rest : List Char} {lines : List String} : '\n' ∉ line.toList →
      Lined rest lines → Lined (line.toList ++ '\r' :: '\n' :: rest) (line :: lines)

theorem withoutReturn_append (line : List Char) : withoutReturn (line ++ ['\r']) = line := by
  rw [withoutReturn, if_pos (by simp), List.dropLast_concat]

theorem withoutReturn_of_last (h : s.getLast? ≠ some '\r') : withoutReturn s = s := if_neg h

theorem linesOf_of_not_mem (h : '\n' ∉ source.toList) :
    linesOf source = if source = "" then [] else [source] := by
  rw [linesOf, Text.splitAll_of_not_mem h]
  by_cases hsource : source = ""
  · simp [hsource]
  · simp [hsource]

/-- A line break ends a line, and the lines of the rest follow. -/
theorem linesOf_append (h : '\n' ∉ s) (hsource : source.toList = s ++ '\n' :: rest) :
    linesOf source = String.ofList (withoutReturn s) :: linesOf (String.ofList rest) := by
  obtain ⟨before, last, hrest⟩ := Text.exists_splitAll_eq_concat '\n' rest
  have hsplit : Text.splitAll '\n' source.toList = (s :: before) ++ [last] := by
    rw [hsource, Text.splitAll_append_cons, Text.splitAll_of_not_mem h, hrest]
    rfl
  simp only [linesOf, String.toList_ofList, hsplit, hrest, List.dropLast_concat,
    List.getLast?_concat, Option.getD_some]
  rfl

theorem Lined.eq_linesOf (h : Lined s lines) : lines = linesOf (String.ofList s) := by
  induction h with
  | nil => rfl
  | @last line hne hline =>
    rw [String.ofList_toList, linesOf_of_not_mem hline, if_neg hne]
  | @broken line rest lines hline hlast _ ih =>
    rw [linesOf_append hline String.toList_ofList, withoutReturn_of_last hlast,
      String.ofList_toList, ih]
  | @returned line rest lines hline _ ih =>
    have hreturn : '\n' ∉ line.toList ++ ['\r'] := by simp [hline]
    have hsource : (String.ofList (line.toList ++ '\r' :: '\n' :: rest)).toList =
        (line.toList ++ ['\r']) ++ '\n' :: rest := by simp
    rw [linesOf_append hreturn hsource, withoutReturn_append, String.ofList_toList, ih]

theorem exists_lined (s : List Char) : ∃ lines, Lined s lines := by
  induction hlength : s.length using Nat.strongRecOn generalizing s with
  | _ length ih =>
    by_cases hbreak : '\n' ∈ s
    · -- the text is cut at its first line break
      obtain ⟨start, rest, rfl, hstart⟩ := List.eq_append_cons_of_mem hbreak
      obtain ⟨lines, hlines⟩ := ih rest.length (by simp [← hlength]; omega) rest rfl
      obtain ⟨line, rfl⟩ : ∃ line : String, line.toList = start := ⟨_, String.toList_ofList⟩
      by_cases hlast : line.toList.getLast? = some '\r'
      · obtain ⟨inner, hinner⟩ := List.getLast?_eq_some_iff.1 hlast
        have hline : '\n' ∉ (String.ofList inner).toList := by
          rw [String.toList_ofList]
          exact fun hmem => hstart (hinner ▸ List.mem_append_left _ hmem)
        refine ⟨String.ofList inner :: lines, ?_⟩
        rw [hinner, List.append_assoc]
        simpa using Lined.returned hline hlines
      · exact ⟨_, .broken hstart hlast hlines⟩
    · obtain ⟨line, rfl⟩ : ∃ line : String, line.toList = s := ⟨_, String.toList_ofList⟩
      by_cases hline : line = ""
      · exact ⟨[], hline ▸ .nil⟩
      · exact ⟨_, .last hline hbreak⟩

theorem lined_iff : Lined source.toList lines ↔ lines = linesOf source := by
  constructor
  · intro h
    simpa using h.eq_linesOf
  · rintro rfl
    obtain ⟨lines, hlines⟩ := exists_lined source.toList
    have heq := hlines.eq_linesOf
    rw [String.ofList_toList] at heq
    exact heq ▸ hlines

theorem Lined.no_break (h : Lined s lines) : ∀ line ∈ lines, '\n' ∉ line.toList := by
  induction h with
  | nil => exact nofun
  | last _ hline => exact List.forall_mem_singleton.2 hline
  | broken hline _ _ ih => exact List.forall_mem_cons.2 ⟨hline, ih⟩
  | returned hline _ ih => exact List.forall_mem_cons.2 ⟨hline, ih⟩

theorem isDigit_of_mem_toString {c : Char} (hc : c ∈ (toString k).toList) : c.isDigit = true := by
  rw [Nat.toString_eq_repr, Nat.toList_repr] at hc
  exact Nat.isDigit_of_mem_toDigits (by omega) (by omega) hc

theorem not_mem_toString {c : Char} (hc : c.isDigit = false) : c ∉ (toString k).toList :=
  fun h => by simp [isDigit_of_mem_toString h] at hc

theorem toString_injective : Function.Injective (toString : Nat → String) := by
  intro i j h
  have hdigits : ∀ n, Nat.ofDigitChars 10 (toString n).toList 0 = n := fun n => by
    rw [Nat.toString_eq_repr, Nat.toList_repr, Nat.ofDigitChars_toDigits (by omega) (by omega)]
  rw [← hdigits i, h, hdigits]

theorem length_toString_le (h : k ≤ n) : (toString k).length ≤ (toString n).length := by
  rw [Nat.toString_eq_repr, Nat.toString_eq_repr]
  have hpos : 0 < n.repr.length := by
    rw [← String.length_toList, Nat.toList_repr]
    exact Nat.length_toDigits_pos
  have hn := (Nat.length_repr_le_iff hpos).1 (Nat.le_refl _)
  exact (Nat.length_repr_le_iff hpos).2 (by omega)

/-- The row of a line: an element with the number of the line as its identifier. In it a link to
the number shows it, aligned to the right to the width of the last number, and what follows the link
shows the line, with four spaces for each tab. -/
structure Row (n k : Nat) (line label content row : String) : Prop where
  row_eq : row = "<span id=\"" ++ toString k ++ "\" class=\"line\"><a href=\"#" ++ toString k ++
    "\">" ++ label ++ ": </a>" ++ content ++ "</span>"
  label_eq : ∃ pad, label = String.ofList (List.replicate pad ' ') ++ toString k
  length_label : label.length = (toString n).length
  harmless : Harmless content.toList
  decodes : Text.unescapeHtml content = String.ofList (line.toList.flatMap fun c =>
    if c = '\t' then [' ', ' ', ' ', ' '] else [c])
  one_line : '\n' ∉ row.toList

def rowOf (width k : Nat) (line : String) : String :=
  "<span id=\"" ++ toString k ++ "\" class=\"line\"><a href=\"#" ++ toString k ++ "\">" ++
    alignRight width k ++ ": </a>" ++ plainSnippet line ++ "</span>"

theorem plainLine_eq (width k : Nat) (line : String) :
    plainLine width k line = rowOf width k line ++ "\n" := by
  have hend : "</span>\n" = "</span>" ++ "\n" := rfl
  -- the equations of texts that end in a literal are slow to make, so the definitions are replaced
  delta plainLine rowOf
  simp only [toString, hend, String.append_assoc]

theorem eq_of_break_mem_escapeChar {c : Char} (h : '\n' ∈ Text.escapeChar c) : c = '\n' := by
  unfold Text.escapeChar at h
  split at h
  case h_6 => exact (List.mem_singleton.1 h).symm
  all_goals exact absurd h (by decide)

theorem not_mem_plainSnippet (hline : '\n' ∉ line.toList) :
    '\n' ∉ (plainSnippet line).toList := by
  rw [plainSnippet, Text.escapeHtml, widenTabs, String.toList_ofList, String.toList_ofList]
  intro h
  obtain ⟨d, hd, hbreak⟩ := List.mem_flatMap.1 h
  obtain rfl := eq_of_break_mem_escapeChar hbreak
  obtain ⟨c, hc, hd⟩ := List.mem_flatMap.1 hd
  split at hd
  · exact absurd (List.mem_replicate.1 hd).2 (by decide)
  · exact hline (List.mem_singleton.1 hd ▸ hc)

theorem row_rowOf (hk : k ≤ n) (hline : '\n' ∉ line.toList) :
    Row n k line (alignRight (toString n).length k) (plainSnippet line)
      (rowOf (toString n).length k line) where
  row_eq := by delta rowOf; rfl
  label_eq := ⟨(toString n).length - (toString k).toList.length, by
    rw [alignRight, String.ofList_append, String.ofList_toList]⟩
  length_label := by
    have hle := length_toString_le hk
    rw [← String.length_toList, alignRight, String.toList_ofList, List.length_append,
      List.length_replicate, String.length_toList]
    omega
  harmless := Text.harmless_escapeHtml _
  decodes := Text.unescapeHtml_escapeHtml _
  one_line := by
    have hk : '\n' ∉ (toString k).toList := not_mem_toString (by decide)
    have hpad : '\n' ∉ List.replicate ((toString n).length - (toString k).toList.length) ' ' := by
      simp
    delta rowOf
    simp only [alignRight, String.toList_append, String.toList_ofList, List.mem_append, not_or, hk,
      hpad, not_mem_plainSnippet hline]
    decide

def rowTags (k : Nat) : List String :=
  ["span id=\"" ++ toString k ++ "\" class=\"line\"", "a href=\"#" ++ toString k ++ "\"", "/a",
    "/span"]

variable {tags : List String} {shown : List Char} {label content : String}

theorem Row.foldl_step (h : Row n k line label content row) :
    row.toList.foldl Markup.step ⟨.content, tags, [], shown⟩ =
      ⟨.content, tags ++ rowTags k, [], shown ++ (label ++ ": " ++ content).toList⟩ := by
  have hnumber : '"' ∉ (toString k).toList := not_mem_toString (by decide)
  have hlabel : '<' ∉ label.toList := by
    obtain ⟨pad, hpad⟩ := h.label_eq
    have hk : '<' ∉ (toString k).toList := not_mem_toString (by decide)
    rw [hpad, String.toList_append, List.mem_append, String.toList_ofList, List.mem_replicate]
    exact not_or.2 ⟨fun hpad => absurd hpad.2 (by decide), hk⟩
  have hcontent : '<' ∉ content.toList := fun hmem => h.harmless _ hmem (by decide)
  have hbegin : ∀ tags shown, "<span id=\"".toList.foldl Markup.step ⟨.content, tags, [], shown⟩ =
      ⟨.doubleQuoted, tags, "span id=\"".toList, shown⟩ := fun _ _ => by cbv
  have hinner : ∀ tags current shown, "\" class=\"line\"><a href=\"#".toList.foldl Markup.step
      ⟨.doubleQuoted, tags, current, shown⟩ = ⟨.doubleQuoted,
        tags ++ [String.ofList (current ++ "\" class=\"line\"".toList)], "a href=\"#".toList,
        shown⟩ := fun _ _ _ => by simp [Markup.step, Text.Spot.next]
  have hend : ∀ tags current shown, "\">".toList.foldl Markup.step
      ⟨.doubleQuoted, tags, current, shown⟩ =
        ⟨.content, tags ++ [String.ofList (current ++ "\"".toList)], [], shown⟩ := fun _ _ _ => rfl
  have hclose : ∀ tags shown, ": </a>".toList.foldl Markup.step ⟨.content, tags, [], shown⟩ =
      ⟨.content, tags ++ ["/a"], [], shown ++ ": ".toList⟩ :=
    fun _ _ => by simp [Markup.step, Text.Spot.next]
  have hlast : ∀ tags shown, "</span>".toList.foldl Markup.step ⟨.content, tags, [], shown⟩ =
      ⟨.content, tags ++ ["/span"], [], shown⟩ :=
    fun _ _ => by simp [Markup.step, Text.Spot.next]
  rw [h.row_eq]
  simp only [String.toList_append, List.foldl_append, hbegin,
    Markup.foldl_doubleQuoted hnumber, hinner, hend, Markup.foldl_content hlabel, hclose,
    Markup.foldl_content hcontent, hlast]
  simp only [rowTags, String.ofList_append, String.ofList_toList, String.append_assoc,
    List.append_assoc, List.cons_append, List.nil_append]

theorem Row.read_eq (h : Row n k line label content row) : Markup.read row =
    { tags := rowTags k, content := (label ++ ": " ++ content).toList } := by
  rw [Markup.read, h.foldl_step, List.nil_append, List.nil_append]

def idOf? (tag : String) : Option String :=
  (Text.splitAt? " id=\"".toList tag.toList).map fun cut =>
    String.ofList (cut.2.takeWhile (· ≠ '"'))

def idsOf (html : String) : List String := (Markup.read html).tags.filterMap idOf?

theorem idOf?_span (k : Nat) :
    idOf? ("span id=\"" ++ toString k ++ "\" class=\"line\"") = some (toString k) := by
  have hcut : ∀ rest, Text.splitAt? " id=\"".toList ("span id=\"".toList ++ rest) =
      some ("span".toList, rest) := fun _ => rfl
  have hnumber : ∀ c ∈ (toString k).toList, decide (c ≠ '"') = true := fun c hc =>
    decide_eq_true fun heq => not_mem_toString (by decide) (heq ▸ hc)
  have hend : "\" class=\"line\"".toList.takeWhile (fun c => decide (c ≠ '"')) = [] := rfl
  rw [idOf?, String.toList_append, String.toList_append, List.append_assoc, hcut, Option.map_some,
    List.takeWhile_append_of_pos hnumber, hend, List.append_nil, String.ofList_toList]

theorem idOf?_link (k : Nat) : idOf? ("a href=\"#" ++ toString k ++ "\"") = none := by
  rw [idOf?, Option.map_eq_none_iff]
  by_contra hcut
  have hinfix := Text.hasWord_iff.1 (Option.isSome_iff_ne_none.2 hcut)
  -- the tag does not even have the letter `i`
  have hmem : 'i' ∈ ("a href=\"#" ++ toString k ++ "\"").toList := hinfix.subset (by decide)
  rw [String.toList_append, String.toList_append, List.mem_append, List.mem_append] at hmem
  rcases hmem with (hmem | hmem) | hmem
  · exact absurd hmem (by decide)
  · exact not_mem_toString (by decide) hmem
  · exact absurd hmem (by decide)

/-- Only the first tag of a row gives an identifier, which is the number of the line. -/
theorem filterMap_rowTags (k : Nat) : (rowTags k).filterMap idOf? = [toString k] := by
  rw [rowTags, List.filterMap_cons_some (idOf?_span k), List.filterMap_cons_none (idOf?_link k)]
  rfl

theorem Row.idsOf_eq (h : Row n k line label content row) : idsOf row = [toString k] := by
  rw [idsOf, h.read_eq, filterMap_rowTags]

/-- Rows one below the other, each ended by a line break. -/
def stacked (rows : List String) : String := String.join (rows.map (· ++ "\n"))

def rowsFrom (width k : Nat) (lines : List String) : List String :=
  (lines.zipIdx k).map fun q => rowOf width q.2 q.1

theorem plain_file : Highlighter.plain.file = plainFile := rfl

theorem plainFile_eq (source : String) : plainFile source =
    stacked (rowsFrom (toString (linesOf source).length).length 1 (linesOf source)) := by
  simp only [plainFile, stacked, rowsFrom, List.map_map, Function.comp_def, plainLine_eq]

/-- A reader is between tags after each row. -/
theorem foldl_stacked (hlines : ∀ line ∈ lines, '\n' ∉ line.toList)
    (hk : k + lines.length ≤ n + 1) (tags : List String) (shown : List Char) : ∃ more,
    (stacked (rowsFrom (toString n).length k lines)).toList.foldl Markup.step
        ⟨.content, tags, [], shown⟩ =
      ⟨.content, tags ++ (List.range' k lines.length).flatMap rowTags, [], more⟩ := by
  induction lines generalizing k tags shown with
  | nil => exact ⟨shown, by simp [stacked, rowsFrom]⟩
  | cons line lines ih =>
    obtain ⟨hline, hrest⟩ := List.forall_mem_cons.1 hlines
    rw [List.length_cons] at hk
    have hrow := row_rowOf (n := n) (k := k) (by omega) hline
    have hstack : stacked (rowsFrom (toString n).length k (line :: lines)) =
        rowOf (toString n).length k line ++ "\n" ++
          stacked (rowsFrom (toString n).length (k + 1) lines) := String.join_cons
    have hbreak : ∀ tags shown, "\n".toList.foldl Markup.step ⟨.content, tags, [], shown⟩ =
        ⟨.content, tags, [], shown ++ ['\n']⟩ := fun _ _ => rfl
    rw [hstack, String.toList_append, String.toList_append, List.foldl_append, List.foldl_append,
      hrow.foldl_step, hbreak, List.length_cons, List.range'_succ, List.flatMap_cons,
      ← List.append_assoc]
    exact ih hrest (by omega) _ _

/-- A text with markup shows the lines of a source, one row for each and numbered from one. -/
structure Numbered (source html : String) (lines rows : List String) : Prop where
  lined : ∀ other, Lined source.toList other ↔ other = lines
  html_eq : html = stacked rows
  length_rows : rows.length = lines.length
  row : ∀ k line row, lines[k]? = some line → rows[k]? = some row → ∃ label content,
    Row lines.length (k + 1) line label content row ∧
      Markup.read row = { tags := rowTags (k + 1), content := (label ++ ": " ++ content).toList }
  ids : idsOf html = (List.range' 1 lines.length).map toString

theorem no_break_of_mem_linesOf : ∀ line ∈ linesOf source, '\n' ∉ line.toList :=
  (lined_iff.2 rfl).no_break

theorem idsOf_plainFile (source : String) :
    idsOf (plainFile source) = (List.range' 1 (linesOf source).length).map toString := by
  obtain ⟨more, hread⟩ := foldl_stacked (n := (linesOf source).length) (k := 1)
    no_break_of_mem_linesOf (Nat.le_of_eq (Nat.add_comm 1 _)) [] []
  rw [← plainFile_eq] at hread
  rw [idsOf, Markup.read, hread, List.nil_append, List.filterMap_flatMap, List.map_eq_flatMap]
  simp only [filterMap_rowTags]

theorem numbered_plainFile (source : String) : Numbered source (plainFile source) (linesOf source)
    (rowsFrom (toString (linesOf source).length).length 1 (linesOf source)) where
  lined _ := lined_iff
  html_eq := plainFile_eq source
  length_rows := by rw [rowsFrom, List.length_map, List.length_zipIdx]
  row k line row hline hrow := by
    rw [rowsFrom, List.getElem?_map, List.getElem?_zipIdx, hline] at hrow
    obtain rfl := Option.some.inj hrow
    have hle : k + 1 ≤ (linesOf source).length := (List.getElem?_eq_some_iff.1 hline).1
    have hbreak := no_break_of_mem_linesOf line (List.mem_of_getElem? hline)
    rw [Nat.add_comm 1 k]
    exact ⟨_, _, row_rowOf hle hbreak, (row_rowOf hle hbreak).read_eq⟩
  ids := idsOf_plainFile source

theorem Numbered.count_eq_one {html : String} {rows : List String}
    (h : Numbered source html lines rows) (hpos : 1 ≤ k) (hle : k ≤ lines.length) :
    (idsOf html).count (toString k) = 1 := by
  have hnodup : ((List.range' 1 lines.length).map (toString : Nat → String)).Nodup :=
    List.Nodup.map toString_injective (List.nodup_range' 1)
  have hmem : toString k ∈ (List.range' 1 lines.length).map toString :=
    List.mem_map_of_mem (List.mem_range'_1.2 ⟨hpos, by omega⟩)
  rw [h.ids, hnodup.count, if_pos hmem]

/-- A fragment leads to a row: just this one of all rows has it as an identifier. -/
def LeadsTo (html fragment row : String) : Prop := ∃ above below : List String,
  html = stacked (above ++ row :: below) ∧ idsOf row = [fragment] ∧
    ∀ other ∈ above ++ below, fragment ∉ idsOf other

theorem Numbered.leadsTo {html : String} {rows : List String} (h : Numbered source html lines rows)
    (hline : lines[k]? = some line) : ∃ label content row,
      Row lines.length (k + 1) line label content row ∧ LeadsTo html (toString (k + 1)) row := by
  have hlt : k < rows.length := h.length_rows ▸ (List.getElem?_eq_some_iff.1 hline).1
  have hids : ∀ j, j ≠ k → ∀ other, rows[j]? = some other → toString (k + 1) ∉ idsOf other := by
    intro j hj other hother
    have hbound : j < lines.length := h.length_rows ▸ (List.getElem?_eq_some_iff.1 hother).1
    obtain ⟨label, content, hrow, -⟩ := h.row j _ other (List.getElem?_eq_getElem hbound) hother
    rw [hrow.idsOf_eq, List.mem_singleton]
    exact fun heq => hj (Nat.succ.inj (toString_injective heq)).symm
  obtain ⟨label, content, hrow, -⟩ := h.row k line rows[k] hline (List.getElem?_eq_getElem hlt)
  refine ⟨label, content, rows[k], hrow, rows.take k, rows.drop (k + 1), ?_, hrow.idsOf_eq,
    fun other hother => ?_⟩
  · rw [← List.drop_eq_getElem_cons hlt, List.take_append_drop]
    exact h.html_eq
  · rcases List.mem_append.1 hother with hother | hother
    · obtain ⟨j, hj, rfl⟩ := List.mem_take_iff_getElem.1 hother
      exact hids j (by omega) _ (List.getElem?_eq_getElem (by omega))
    · obtain ⟨j, hj, rfl⟩ := List.mem_drop_iff_getElem.1 hother
      exact hids (k + 1 + j) (by omega) _ (List.getElem?_eq_getElem (by omega))

end Highlight
end DocSite
