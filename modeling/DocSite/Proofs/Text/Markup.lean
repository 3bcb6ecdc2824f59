import DocSite.Proofs.Text.Escape

namespace DocSite.Text

inductive Piece where
  /-- The tag that begins an anchor. -/
  | opening (address : String)
  /-- The tag that ends an anchor. -/
  | closing
  | text (s : String)

namespace Piece

def html : Piece → String
  | opening address => "<a href=\"" ++ address ++ "\">"
  | closing => "</a>"
  | text s => s

def bare : Piece → String
  | opening _ => ""
  | closing => ""
  | text s => s

def tags : Piece → List String
  | opening address => ["a href=\"" ++ address ++ "\""]
  | closing => ["/a"]
  | text _ => []

/-- A part that nothing in it can end before its time. -/
def Sound : Piece → Prop
  | opening address => '"' ∉ address.toList
  | closing => True
  | text s => Harmless s.toList

def joined (f : Piece → String) : List Piece → String
  | [] => ""
  | p :: pieces => f p ++ joined f pieces

variable {f : Piece → String}

theorem joined_append (pieces more : List Piece) :
    joined f (pieces ++ more) = joined f pieces ++ joined f more := by
  induction pieces with
  | nil => rw [List.nil_append, joined, String.empty_append]
  | cons p pieces ih => rw [List.cons_append, joined, joined, ih, String.append_assoc]

theorem joined_intercalate (sep : Piece) (parts : List (List Piece)) :
    joined f ([sep].intercalate parts) = (f sep).intercalate (parts.map (joined f)) := by
  induction parts with
  | nil => rfl
  | cons part parts ih =>
    cases parts with
    | nil => simp
    | cons next rest =>
      rw [List.intercalate_cons_cons, joined_append, joined_append, ih, List.map_cons,
        List.map_cons, List.map_cons, String.intercalate_cons_cons, joined, joined,
        String.append_empty]

/-- What is gathered from parts that are separated by a part that gives nothing. -/
theorem flatMap_intercalate {β : Type} {g : Piece → List β} {sep : Piece} (hsep : g sep = [])
    (parts : List (List Piece)) :
    ([sep].intercalate parts).flatMap g = parts.flatMap fun part => part.flatMap g := by
  induction parts with
  | nil => rfl
  | cons part parts ih =>
    cases parts with
    | nil => simp
    | cons next rest =>
      rw [List.intercalate_cons_cons, List.flatMap_append, List.flatMap_append, ih,
        List.flatMap_singleton, hsep, List.append_nil, ← List.flatMap_cons]

theorem mem_intercalate {p sep : Piece} {parts : List (List Piece)}
    (h : p ∈ [sep].intercalate parts) : p = sep ∨ ∃ part ∈ parts, p ∈ part := by
  induction parts with
  | nil => simp at h
  | cons part parts ih =>
    cases parts with
    | nil => exact .inr ⟨part, .head _, by simpa using h⟩
    | cons next rest =>
      rw [List.intercalate_cons_cons, List.mem_append, List.mem_append, List.mem_singleton] at h
      rcases h with (h | h) | h
      · exact .inr ⟨part, .head _, h⟩
      · exact .inl h
      · exact (ih h).imp_right fun ⟨q, hq, hp⟩ => ⟨q, .tail _ hq, hp⟩

end Piece

/-- Where a reader is: between tags, or inside of a tag, and there perhaps inside of quotation
marks. -/
inductive Spot where
  | content
  | tag
  | singleQuoted
  | doubleQuoted
  deriving DecidableEq

def Spot.next : Spot → Char → Spot
  | content, '<' => tag
  | tag, '>' => content
  | tag, '\'' => singleQuoted
  | tag, '"' => doubleQuoted
  | singleQuoted, '\'' => tag
  | doubleQuoted, '"' => tag
  | spot, _ => spot

/-- The characters that a reader takes for markup: angle brackets and quotation marks. -/
def isMark (c : Char) : Bool := ['<', '>', '"', '\''].contains c

theorem Spot.next_of_not_mark {c : Char} (hc : isMark c = false) (spot : Spot) :
    spot.next c = spot := by
  unfold next
  split
  all_goals first | rfl | exact absurd hc (by decide)

theorem Spot.next_content {c : Char} (hc : c ≠ '<') : content.next c = content := by
  unfold next
  split <;> simp_all

theorem Spot.next_doubleQuoted {c : Char} (hc : c ≠ '"') :
    doubleQuoted.next c = doubleQuoted := by
  unfold next
  split <;> simp_all

structure Markup where
  spot : Spot := .content
  /-- The tags that have ended, without their angle brackets. -/
  tags : List String := []
  /-- The beginning of a tag that has not ended. -/
  current : List Char := []
  /-- The characters outside of tags. -/
  content : List Char := []
  deriving DecidableEq

namespace Markup

def step (r : Markup) (c : Char) : Markup :=
  match r.spot, r.spot.next c with
  | .content, .content => { r with content := r.content ++ [c] }
  | .content, next => { r with spot := next }
  | _, .content =>
    { r with spot := .content, tags := r.tags ++ [String.ofList r.current], current := [] }
  | _, next => { r with spot := next, current := r.current ++ [c] }

def read (s : String) : Markup := s.toList.foldl step {}

variable {tags : List String} {current content s : List Char}

theorem foldl_content (hs : '<' ∉ s) :
    s.foldl step ⟨.content, tags, [], content⟩ = ⟨.content, tags, [], content ++ s⟩ := by
  induction s generalizing content with
  | nil => rw [List.foldl_nil, List.append_nil]
  | cons c s ih =>
    rw [List.mem_cons, not_or] at hs
    obtain ⟨hc, hs⟩ := hs
    have hstep : step ⟨.content, tags, [], content⟩ c = ⟨.content, tags, [], content ++ [c]⟩ := by
      simp only [step, Spot.next_content (Ne.symm hc)]
    rw [List.foldl_cons, hstep, ih hs, List.append_assoc, List.singleton_append]

theorem foldl_doubleQuoted (hs : '"' ∉ s) :
    s.foldl step ⟨.doubleQuoted, tags, current, content⟩ =
      ⟨.doubleQuoted, tags, current ++ s, content⟩ := by
  induction s generalizing current with
  | nil => rw [List.foldl_nil, List.append_nil]
  | cons c s ih =>
    rw [List.mem_cons, not_or] at hs
    obtain ⟨hc, hs⟩ := hs
    have hstep : step ⟨.doubleQuoted, tags, current, content⟩ c =
        ⟨.doubleQuoted, tags, current ++ [c], content⟩ := by
      simp only [step, Spot.next_doubleQuoted (Ne.symm hc)]
    rw [List.foldl_cons, hstep, ih hs, List.append_assoc, List.singleton_append]

/-- A part that nothing ends before its time is read as it was written. -/
theorem foldl_html {p : Piece} (hp : p.Sound) :
    p.html.toList.foldl step ⟨.content, tags, [], content⟩ =
      ⟨.content, tags ++ p.tags, [], content ++ p.bare.toList⟩ := by
  cases p with
  | closing =>
    rw [Piece.bare, String.toList_empty, List.append_nil]
    rfl
  | text s =>
    have htext : '<' ∉ s.toList := fun h => hp _ h (.head _)
    rw [Piece.html, foldl_content htext, Piece.tags, List.append_nil, Piece.bare]
  | opening address =>
    have hbegin : "<a href=\"".toList.foldl step ⟨.content, tags, [], content⟩ =
        ⟨.doubleQuoted, tags, "a href=\"".toList, content⟩ := by cbv
    have hend : ∀ current, "\">".toList.foldl step ⟨.doubleQuoted, tags, current, content⟩ =
        ⟨.content, tags ++ [String.ofList (current ++ ['"'])], [], content⟩ := fun _ => rfl
    rw [Piece.html, String.toList_append, String.toList_append, List.foldl_append,
      List.foldl_append, hbegin, foldl_doubleQuoted hp, hend, Piece.bare, Piece.tags,
      String.toList_empty, List.append_nil, String.ofList_append, String.ofList_append,
      String.ofList_toList, String.ofList_toList]

/-- A reader finds the tags that were written, and outside of them what is left if the anchors are
removed. -/
theorem read_joined {pieces : List Piece} (h : ∀ p ∈ pieces, p.Sound) :
    read (Piece.joined Piece.html pieces) = {
      tags := pieces.flatMap Piece.tags
      content := (Piece.joined Piece.bare pieces).toList } := by
  have hfold : ∀ tags content,
      (Piece.joined Piece.html pieces).toList.foldl step ⟨.content, tags, [], content⟩ =
        ⟨.content, tags ++ pieces.flatMap Piece.tags, [],
          content ++ (Piece.joined Piece.bare pieces).toList⟩ := by
    induction pieces with
    | nil => simp [Piece.joined]
    | cons p pieces ih =>
      intro tags content
      obtain ⟨hp, hrest⟩ := List.forall_mem_cons.1 h
      rw [Piece.joined, String.toList_append, List.foldl_append, foldl_html hp, ih hrest,
        Piece.joined, String.toList_append, List.flatMap_cons, List.append_assoc,
        List.append_assoc]
  rw [read, hfold, List.nil_append, List.nil_append]

end Markup

/-- The characters of a text that a reader takes for markup, in order. -/
def marks (s : String) : List Char := s.toList.filter isMark

theorem marks_append (s t : String) : marks (s ++ t) = marks s ++ marks t := by
  rw [marks, String.toList_append, List.filter_append, marks, marks]

theorem marks_joined (f : Piece → String) (pieces : List Piece) :
    marks (Piece.joined f pieces) = pieces.flatMap fun p => marks (f p) := by
  induction pieces with
  | nil => rfl
  | cons p pieces ih => rw [Piece.joined, marks_append, ih, List.flatMap_cons]

theorem marks_eq_nil_iff {s : String} : marks s = [] ↔ Harmless s.toList := by
  simp [marks, isMark, Harmless, Lacks]

namespace Markup

variable {r r' : Markup}

/-- Where a reader is and how many tags have ended. -/
def outline (r : Markup) : Spot × Nat := (r.spot, r.tags.length)

theorem outline_step (r : Markup) (c : Char) : (r.step c).outline =
    (r.spot.next c, if r.spot ≠ .content ∧ r.spot.next c = .content then r.tags.length + 1
      else r.tags.length) := by
  unfold step outline
  split <;> simp_all

theorem outline_step_of_not_mark {c : Char} (hc : isMark c = false) (r : Markup) :
    (r.step c).outline = r.outline := by
  rw [outline_step, Spot.next_of_not_mark hc, if_neg fun h => h.1 h.2, outline]

theorem outline_foldl (s : List Char) (h : r.outline = r'.outline) :
    (s.foldl step r).outline = ((s.filter isMark).foldl step r').outline := by
  induction s generalizing r r' with
  | nil => exact h
  | cons c s ih =>
    cases hc : isMark c with
    | false =>
      rw [List.foldl_cons, List.filter_cons_of_neg (by simp [hc])]
      exact ih ((outline_step_of_not_mark hc r).trans h)
    | true =>
      rw [List.foldl_cons, List.filter_cons_of_pos hc, List.foldl_cons]
      obtain ⟨hspot, htags⟩ := Prod.mk.inj h
      refine ih ?_
      rw [outline_step, outline_step, hspot, htags]

/-- Texts with the same marks have as many tags, and leave a reader in the same place. -/
theorem outline_read_eq {s t : String} (h : marks s = marks t) :
    (read s).outline = (read t).outline := by
  have hmarks : ∀ s, (read s).outline = ((marks s).foldl step {}).outline :=
    fun s => outline_foldl s.toList rfl
  rw [hmarks, h, ← hmarks]

end Markup

end DocSite.Text
