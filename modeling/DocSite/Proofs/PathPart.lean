import DocSite.PathPart
import DocSite.Proofs.Text.Cut
import Mathlib.Data.List.Basic

namespace DocSite.PathAlphabet

variable {α : Type} [DecidableEq α] {A : PathAlphabet α}
variable {a b p q root file s : List α} {c : PathPart α} {base cs rest : List (PathPart α)}
variable {segments : List (List α)}

theorem part?_eq_none_iff : A.part? s = none ↔ s = [] ∨ s = [A.point] := by
  unfold part?
  split
  · simp [*]
  · split <;> simp [*]

theorem part?_eq_up_iff : A.part? s = some .up ↔ s = [A.point, A.point] := by
  unfold part?
  split
  · rename_i h
    rcases h with rfl | rfl <;> simp
  · split <;> simp [*]

theorem text_of_part? (h : A.part? s = some c) : A.text c = s := by
  unfold part? at h
  split at h
  · simp at h
  · split at h
    · rename_i hup
      rw [← Option.some.inj h, hup]
      rfl
    · rw [← Option.some.inj h]
      rfl

/-- A part that may stand anywhere in a path: its text is a segment that names it. -/
structure Inner (A : PathAlphabet α) (c : PathPart α) : Prop where
  named : A.part? (A.text c) = some c
  no_separator : A.separator ∉ A.text c

theorem inner_of_mem (h : c ∈ A.inner s) : A.Inner c := by
  obtain ⟨segment, hsegment, hc⟩ := List.mem_filterMap.1 h
  have htext : A.text c = segment := text_of_part? hc
  exact ⟨htext ▸ hc, htext ▸ Text.not_mem_of_mem_splitAll hsegment⟩

theorem Inner.text_ne_nil (h : A.Inner c) : A.text c ≠ [] := by
  intro hnil
  simpa [hnil, part?] using h.named

theorem Inner.text_ne_point (h : A.Inner c) : A.text c ≠ [A.point] := by
  intro hpoint
  simpa [hpoint, part?] using h.named

theorem inner_append_separator (a b : List α) :
    A.inner (a ++ A.separator :: b) = A.inner a ++ A.inner b := by
  rw [inner, Text.splitAll_append_cons, List.filterMap_append, inner, inner]

/-- Parts that may stand anywhere are found again in their text. -/
theorem inner_written (h : ∀ c ∈ cs, A.Inner c) : A.inner (A.written cs) = cs := by
  cases cs with
  | nil => simp [written, Text.joinWith, inner, Text.splitAll, part?]
  | cons c cs =>
    rw [inner, written, Text.splitAll_joinWith (by simp)]
    · rw [List.filterMap_map]
      exact (List.filterMap_congr fun d hd => (h d hd).named).trans List.filterMap_some
    · intro segment hsegment
      obtain ⟨d, hd, rfl⟩ := List.mem_map.1 hsegment
      exact (h d hd).no_separator

theorem start_append_separator (ha : a ≠ []) (b : List α) :
    A.start (a ++ A.separator :: b) = A.start a := by
  rw [start, start, List.head?_append_of_ne_nil _ ha, Text.splitAll_append_cons,
    List.head?_append_of_ne_nil _ (Text.splitAll_ne_nil A.separator a)]

/-- What follows a separator is read in the same way wherever it stands. -/
theorem parts_append_separator (ha : a ≠ []) (b : List α) :
    A.parts (a ++ A.separator :: b) = A.parts a ++ A.inner b := by
  rw [parts, start_append_separator ha, inner_append_separator, parts, List.append_assoc]

theorem parts_eq_nil (h : A.parts s = []) : s = [] := by
  obtain ⟨hstart, hinner⟩ := List.append_eq_nil_iff.1 h
  by_contra hs
  have hno : A.start s = none := by simpa using hstart
  unfold start at hno
  split at hno
  · simp at hno
  rename_i hhead
  split at hno
  · simp at hno
  rename_i hpoint
  -- the first segment is read: it is neither empty nor a point
  cases hsplit : Text.splitAll A.separator s with
  | nil => exact Text.splitAll_ne_nil A.separator s hsplit
  | cons segment segments =>
    have hnone := List.filterMap_eq_nil_iff.1 hinner segment (by simp [hsplit])
    rcases part?_eq_none_iff.1 hnone with rfl | rfl
    · exact (Text.head?_of_splitAll_cons_nil hsplit).elim hs hhead
    · simp [hsplit] at hpoint

theorem start_of_inner (h : A.Inner c) : A.start (A.text c) = none := by
  have hone : Text.splitAll A.separator (A.text c) = [A.text c] :=
    Text.splitAll_of_not_mem h.no_separator
  rw [start, if_neg, if_neg]
  · rw [hone]
    simpa using h.text_ne_point
  · exact fun hhead => h.no_separator (List.mem_of_mem_head? hhead)

theorem parts_of_inner (h : A.Inner c) : A.parts (A.text c) = [c] := by
  have hone : Text.splitAll A.separator (A.text c) = [A.text c] :=
    Text.splitAll_of_not_mem h.no_separator
  rw [parts, start_of_inner h, inner, hone]
  simp [h.named]

theorem parts_of_start (h : A.start s = some c) : A.parts (A.text c) = [c] := by
  unfold start at h
  split at h
  · obtain rfl := Option.some.inj h
    simp [parts, start, text, inner, Text.splitAll, part?]
  · split at h
    · obtain rfl := Option.some.inj h
      have hne := A.point_ne_separator
      simp [parts, start, text, inner, Text.splitAll, part?, hne]
    · simp at h

/-- A path begins with a part that its text names, and the others may stand anywhere. -/
theorem parts_cons (h : A.parts s = c :: cs) : A.parts (A.text c) = [c] ∧ ∀ d ∈ cs, A.Inner d := by
  unfold parts at h
  cases hstart : A.start s with
  | none =>
    rw [hstart, Option.toList_none, List.nil_append] at h
    have hinner : ∀ d ∈ c :: cs, A.Inner d := fun d hd => inner_of_mem (h ▸ hd)
    exact ⟨parts_of_inner (hinner c (.head _)), fun d hd => hinner d (.tail _ hd)⟩
  | some first =>
    rw [hstart, Option.toList_some, List.singleton_append] at h
    obtain ⟨rfl, rfl⟩ := List.cons.inj h
    exact ⟨parts_of_start hstart, fun d => inner_of_mem⟩

theorem inner_of_parts_append (h : A.parts s = base ++ rest) (hbase : base ≠ []) :
    ∀ c ∈ rest, A.Inner c := by
  obtain ⟨d, base, rfl⟩ := List.exists_cons_of_ne_nil hbase
  exact fun c hc => (parts_cons h).2 c (List.mem_append_right _ hc)

omit [DecidableEq α] in
theorem written_cons_cons (c d : PathPart α) (cs : List (PathPart α)) :
    A.written (c :: d :: cs) = A.text c ++ A.separator :: A.written (d :: cs) := by
  simp [written, Text.joinWith_cons_cons]

theorem parts_written (s : List α) : A.parts (A.written (A.parts s)) = A.parts s := by
  cases hs : A.parts s with
  | nil => simp [written, Text.joinWith, parts, start, inner, Text.splitAll, part?]
  | cons c cs =>
    obtain ⟨hc, hcs⟩ := parts_cons hs
    cases cs with
    | nil => exact hc
    | cons d cs =>
      have hne : A.text c ≠ [] := by
        intro hnil
        simp [hnil, parts, start, inner, Text.splitAll, part?] at hc
      rw [written_cons_cons, parts_append_separator hne, hc, inner_written hcs,
        List.singleton_append]

theorem head?_written (h : ∀ c ∈ cs, A.Inner c) : (A.written cs).head? ≠ some A.separator := by
  cases cs with
  | nil => simp [written, Text.joinWith]
  | cons c cs =>
    have hc := h c (.head _)
    obtain ⟨x, xs, hx⟩ := List.exists_cons_of_ne_nil hc.text_ne_nil
    have hsep := hc.no_separator
    rw [hx, List.mem_cons, not_or] at hsep
    cases cs <;> simpa [written, Text.joinWith, hx] using Ne.symm hsep.1

/-- Joining puts the parts of a relative path behind those of the first path. -/
theorem parts_join (hp : p ≠ []) (hq : q.head? ≠ some A.separator) :
    A.parts (A.join p q) = A.parts p ++ A.inner q := by
  have hempty : A.inner [] = [] := by simp [inner, Text.splitAll, part?]
  rw [join, if_neg (not_or.2 ⟨hq, hp⟩)]
  split
  · rename_i hlast
    obtain ⟨before, rfl⟩ := List.getLast?_eq_some_iff.1 hlast
    rw [List.append_assoc, List.singleton_append]
    by_cases hbefore : before = []
    · subst hbefore
      simp [parts, start, inner, Text.splitAll_cons_self, Text.splitAll, part?]
    · rw [parts_append_separator hbefore, parts_append_separator hbefore, hempty, List.append_nil]
  · exact parts_append_separator hp q

theorem below_of_append (h : A.parts file = A.parts root ++ rest) : A.below root file = rest := by
  rw [below, Text.after?_eq_some_iff.2 h, Option.getD_some]

theorem below_of_outside (h : ¬A.parts root <+: A.parts file) :
    A.below root file = A.parts file := by
  have hnone : Text.after? (A.parts root) (A.parts file) = none :=
    Option.eq_none_iff_forall_ne_some.2 fun rest hrest =>
      h ⟨rest, (Text.after?_eq_some_iff.1 hrest).symm⟩
  rw [below, hnone, Option.getD_none]

/-- What lies below a root leads from the root back to the file. -/
theorem parts_join_below (h : A.parts root <+: A.parts file) :
    A.parts (A.join root (A.written (A.below root file))) = A.parts file := by
  obtain ⟨rest, hrest⟩ := h
  rw [below_of_append hrest.symm]
  by_cases hroot : root = []
  · have hnone : A.parts root = [] := by
      simp [hroot, parts, start, inner, Text.splitAll, part?]
    rw [hnone, List.nil_append] at hrest
    rw [hroot, join, if_pos (.inr rfl), hrest, parts_written]
  · have hinner : ∀ c ∈ rest, A.Inner c :=
      inner_of_parts_append hrest.symm (mt parts_eq_nil hroot)
    rw [parts_join hroot (head?_written hinner), inner_written hinner, hrest]

theorem parts_separator_cons (s : List α) : A.parts (A.separator :: s) = .root :: A.inner s := by
  have hskipped : A.inner (A.separator :: s) = A.inner s := by
    simp [inner, Text.splitAll_cons_self, part?]
  rw [parts, hskipped, start, List.head?_cons, if_pos rfl]
  rfl

theorem parts_of_plain (hhead : s.head? ≠ some A.separator)
    (hpoint : [A.point] ∉ Text.splitAll A.separator s) : A.parts s = A.inner s := by
  have hno : A.start s = none := by
    rw [start, if_neg hhead, if_neg]
    exact fun h => hpoint (List.mem_of_mem_head? h)
  rw [parts, hno]
  rfl

theorem map_text_filterMap (h : ∀ segment ∈ segments, segment ≠ [] ∧ segment ≠ [A.point]) :
    (segments.filterMap A.part?).map A.text = segments := by
  induction segments with
  | nil => rfl
  | cons segment segments ih =>
    obtain ⟨hsegment, hrest⟩ := List.forall_mem_cons.1 h
    cases hc : A.part? segment with
    | none =>
      exact (part?_eq_none_iff.1 hc).elim (absurd · hsegment.1) (absurd · hsegment.2)
    | some c => rw [List.filterMap_cons_some hc, List.map_cons, text_of_part? hc, ih hrest]

/-- A text with nothing to normalise is written from the parts that are read in it. -/
theorem written_inner (hrepeat : ¬[A.separator, A.separator] <:+: s)
    (hend : s.getLast? ≠ some A.separator) (hbegin : s.head? ≠ some A.separator)
    (hpoint : [A.point] ∉ Text.splitAll A.separator s) : A.written (A.inner s) = s := by
  by_cases hs : s = []
  · simp [hs, written, inner, Text.splitAll, part?, Text.joinWith]
  have hsegments : ∀ segment ∈ Text.splitAll A.separator s,
      segment ≠ [] ∧ segment ≠ [A.point] := by
    intro segment hsegment
    refine ⟨?_, fun h => hpoint (h ▸ hsegment)⟩
    rintro rfl
    cases hsplit : Text.splitAll A.separator s with
    | nil => exact Text.splitAll_ne_nil A.separator s hsplit
    | cons first segments =>
      rw [hsplit] at hsegment
      rcases List.mem_cons.1 hsegment with rfl | hnil
      · exact (Text.head?_of_splitAll_cons_nil hsplit).elim hs hbegin
      · exact (Text.separators_of_nil_mem hsplit hnil).elim hend hrepeat
  rw [written, inner, map_text_filterMap hsegments, Text.joinWith_splitAll]

/-- How the letters of one alphabet are written with those of another. What is written stays
apart, and only the separator is written with a separator. -/
structure Encoding {α β : Type} (A : PathAlphabet α) (B : PathAlphabet β) (e : α → List β) :
    Prop where
  separator : e A.separator = [B.separator]
  point : e A.point = [B.point]
  eq_separator : ∀ x, B.separator ∈ e x → x = A.separator
  injective : Function.Injective fun s : List α => s.flatMap e

namespace Encoding

variable {α β : Type} {A : PathAlphabet α} {B : PathAlphabet β} {e : α → List β} {s : List α}

theorem ne_nil (h : Encoding A B e) (x : α) : e x ≠ [] := by
  intro hnil
  have hsame : [x].flatMap e = [].flatMap e := by simp [hnil]
  simpa using h.injective hsame

theorem flatMap_eq_point_iff (h : Encoding A B e) :
    s.flatMap e = [B.point] ↔ s = [A.point] := by
  have hpoint : [A.point].flatMap e = [B.point] := by simp [h.point]
  rw [← hpoint]
  exact h.injective.eq_iff

theorem text_map (h : Encoding A B e) (c : PathPart α) :
    B.text (c.map (·.flatMap e)) = (A.text c).flatMap e := by
  cases c <;> simp [PathPart.map, text, h.separator, h.point]

theorem map_injective (h : Encoding A B e) :
    Function.Injective (PathPart.map fun s : List α => s.flatMap e) := by
  intro c d hcd
  cases c <;> cases d <;> simp only [PathPart.map, reduceCtorEq, PathPart.name.injEq] at hcd ⊢
  exact h.injective hcd

theorem head?_flatMap_iff (h : Encoding A B e) :
    (s.flatMap e).head? = some B.separator ↔ s.head? = some A.separator := by
  cases s with
  | nil => simp
  | cons x s =>
    rw [List.flatMap_cons, List.head?_append_of_ne_nil _ (h.ne_nil x), List.head?_cons,
      Option.some.injEq]
    constructor
    · exact fun hhead => h.eq_separator x (List.mem_of_mem_head? hhead)
    · rintro rfl
      rw [h.separator, List.head?_cons]

theorem getLast?_flatMap_iff (h : Encoding A B e) :
    (s.flatMap e).getLast? = some B.separator ↔ s.getLast? = some A.separator := by
  rcases List.eq_nil_or_concat s with rfl | ⟨before, x, rfl⟩
  · simp
  rw [List.concat_eq_append, List.flatMap_append, List.flatMap_singleton,
    List.getLast?_append_of_ne_nil _ (h.ne_nil x), List.getLast?_concat, Option.some.injEq]
  constructor
  · exact fun hlast => h.eq_separator x (List.mem_of_getLast? hlast)
  · rintro rfl
    rw [h.separator, List.getLast?_singleton]

variable [DecidableEq α] [DecidableEq β]

theorem splitAll_flatMap (h : Encoding A B e) (s : List α) :
    Text.splitAll B.separator (s.flatMap e) =
      (Text.splitAll A.separator s).map (·.flatMap e) := by
  induction s with
  | nil => rfl
  | cons x s ih =>
    rw [List.flatMap_cons]
    by_cases hx : x = A.separator
    · rw [hx, h.separator, List.singleton_append, Text.splitAll_cons_self,
        Text.splitAll_cons_self, ih]
      rfl
    · -- what is written for `x` goes to the first part of the rest
      have hone : Text.splitAll B.separator (e x) = [] ++ [e x] :=
        Text.splitAll_of_not_mem (mt (h.eq_separator x) hx)
      cases hs : Text.splitAll A.separator s with
      | nil => exact absurd hs (Text.splitAll_ne_nil _ s)
      | cons part rest =>
        rw [hs, List.map_cons] at ih
        rw [Text.splitAll_append hone ih, Text.splitAll, if_neg hx, hs]
        rfl

theorem part?_flatMap (h : Encoding A B e) (s : List α) :
    B.part? (s.flatMap e) = (A.part? s).map (PathPart.map (·.flatMap e)) := by
  have hnil : s.flatMap e = [] ↔ s = [] := h.injective.eq_iff (b := [])
  have hup : s.flatMap e = [B.point, B.point] ↔ s = [A.point, A.point] := by
    have hpoints : [A.point, A.point].flatMap e = [B.point, B.point] := by simp [h.point]
    rw [← hpoints]
    exact h.injective.eq_iff
  simp only [part?, hnil, h.flatMap_eq_point_iff, hup]
  split
  · rfl
  · split <;> rfl

theorem inner_flatMap (h : Encoding A B e) (s : List α) :
    B.inner (s.flatMap e) = (A.inner s).map (PathPart.map (·.flatMap e)) := by
  rw [inner, h.splitAll_flatMap, List.filterMap_map, inner, List.map_filterMap]
  exact List.filterMap_congr fun segment _ => h.part?_flatMap segment

theorem start_flatMap (h : Encoding A B e) (s : List α) :
    B.start (s.flatMap e) = (A.start s).map (PathPart.map (·.flatMap e)) := by
  have hfirst : (Text.splitAll B.separator (s.flatMap e)).head? = some [B.point] ↔
      (Text.splitAll A.separator s).head? = some [A.point] := by
    rw [h.splitAll_flatMap, List.head?_map, Option.map_eq_some_iff]
    simp only [h.flatMap_eq_point_iff, exists_eq_right]
  simp only [start, h.head?_flatMap_iff, hfirst]
  split
  · rfl
  · split <;> rfl

theorem parts_flatMap (h : Encoding A B e) (s : List α) :
    B.parts (s.flatMap e) = (A.parts s).map (PathPart.map (·.flatMap e)) := by
  rw [parts, h.start_flatMap, h.inner_flatMap, parts, List.map_append, Option.toList_map]

theorem below_flatMap (h : Encoding A B e) (root file : List α) :
    B.below (root.flatMap e) (file.flatMap e) =
      (A.below root file).map (PathPart.map (·.flatMap e)) := by
  by_cases hprefix : A.parts root <+: A.parts file
  · obtain ⟨rest, hrest⟩ := hprefix
    rw [below_of_append hrest.symm]
    apply below_of_append
    rw [h.parts_flatMap, h.parts_flatMap, ← hrest, List.map_append]
  · rw [below_of_outside hprefix, below_of_outside, h.parts_flatMap]
    rwa [h.parts_flatMap, h.parts_flatMap, List.prefix_map_iff_of_injective h.map_injective]

theorem join_flatMap (h : Encoding A B e) (p q : List α) :
    B.join (p.flatMap e) (q.flatMap e) = (A.join p q).flatMap e := by
  have hnil : p.flatMap e = [] ↔ p = [] := h.injective.eq_iff (b := [])
  simp only [join, h.head?_flatMap_iff, hnil, h.getLast?_flatMap_iff]
  split
  · rfl
  · split <;> simp [h.separator]

end Encoding
end DocSite.PathAlphabet
