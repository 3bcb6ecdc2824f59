import DocSite.Markdown.Document
import DocSite.Proofs.Markdown.Phrase

namespace DocSite.Markdown

def Event.isPlain : Event → Bool
  | .start tag | .stop tag => tag != .codeBlock && tag != .htmlBlock
  | .html _ => false
  | _ => true

inductive Chunk where
  | text (s : String)
  | line (s : String)
  deriving DecidableEq, Repr

namespace Chunk

def event : Chunk → Event
  | text s => .text s
  | line s => .html s

def text? : Chunk → Option String
  | text s => some s
  | line _ => none

def line? : Chunk → Option String
  | text _ => none
  | line s => some s

end Chunk

inductive Section where
  | code (texts : List String)
  | html (chunks : List Chunk)
  | one (e : Event) (plain : e.isPlain = true)

def Section.events : Section → List Event
  | code texts => wrapped .codeBlock (texts.map .text)
  | html chunks => wrapped .htmlBlock (chunks.map Chunk.event)
  | one e _ => [e]

/-- Sections in which whatever starts is stopped, one inside the other. -/
inductive Nested : List Section → Prop
  | nil : Nested []
  | code (texts : List String) : Nested [.code texts]
  | html (chunks : List Chunk) : Nested [.html chunks]
  | one {e : Event} (plain : e.isPlain = true) : (∀ tag, e ≠ .start tag ∧ e ≠ .stop tag) →
      Nested [.one e plain]
  | append {a b : List Section} : Nested a → Nested b → Nested (a ++ b)
  | wrap {tag : Tag} {inner : List Section} (start : (Event.start tag).isPlain = true)
      (stop : (Event.stop tag).isPlain = true) : Nested inner →
      Nested (.one (.start tag) start :: (inner ++ [.one (.stop tag) stop]))

/-- Whether events are those of nested sections. -/
def Sectioned (events : List Event) : Prop :=
  ∃ sections : List Section, Nested sections ∧ events = sections.flatMap Section.events

section Sections

variable {a b events : List Event} {tag : Tag}

theorem Sectioned.nil : Sectioned [] := ⟨[], .nil, rfl⟩

theorem Sectioned.one {e : Event} (plain : e.isPlain = true)
    (h : ∀ tag, e ≠ .start tag ∧ e ≠ .stop tag) : Sectioned [e] := ⟨_, .one plain h, rfl⟩

theorem Sectioned.append (ha : Sectioned a) (hb : Sectioned b) : Sectioned (a ++ b) := by
  obtain ⟨sections, hsections, rfl⟩ := ha
  obtain ⟨others, hothers, rfl⟩ := hb
  exact ⟨sections ++ others, hsections.append hothers, by rw [List.flatMap_append]⟩

theorem Sectioned.wrapped (h : Sectioned events)
    (htag : (tag != .codeBlock && tag != .htmlBlock) = true) :
    Sectioned (Markdown.wrapped tag events) := by
  obtain ⟨inner, hinner, rfl⟩ := h
  refine ⟨_, .wrap htag htag hinner, ?_⟩
  rw [List.flatMap_cons, List.flatMap_append]
  rfl

theorem Sectioned.flatMap {α : Type} {f : α → List Event} {items : List α}
    (h : ∀ x ∈ items, Sectioned (f x)) : Sectioned (items.flatMap f) := by
  induction items with
  | nil => exact .nil
  | cons x items ih =>
    obtain ⟨hx, h⟩ := List.forall_mem_cons.1 h
    exact hx.append (ih h)

end Sections

theorem inlineEvents_eq_flatMap (parts : List Inline) :
    inlineEvents parts = parts.flatMap Inline.events := by
  induction parts with
  | nil => rfl
  | cons part parts ih => rw [inlineEvents, ih, List.flatMap_cons]

theorem Inline.Phrasing.sectioned {part : Inline} (h : part.Phrasing) :
    Sectioned part.events := by
  induction h with
  | @leaf part hleaf =>
    cases part with
    | wrap tag children => exact absurd rfl (hleaf tag children)
    | text s =>
      rw [Inline.events]
      split
      · exact .nil
      · exact .one rfl (by simp)
    | _ => exact .one rfl (by simp)
  | @wrap tag children htag _ ih =>
    have hplain : (tag != .codeBlock && tag != .htmlBlock) = true := by
      cases tag with
      | _ => first | rfl | contradiction
    rw [Inline.events, inlineEvents_eq_flatMap]
    exact (Sectioned.flatMap ih).wrapped hplain

theorem Phrase.sectioned (p : Phrase) (definitions : List Definition) :
    Sectioned (p.events definitions) := by
  rw [Phrase.events, inlineEvents_eq_flatMap]
  exact .flatMap fun part hpart => (p.parts_phrasing definitions part hpart).sectioned

theorem sectioned_cellEvents (definitions : List Definition) (row : List Phrase) :
    Sectioned (cellEvents definitions row) :=
  .flatMap fun cell _ => (cell.sectioned definitions).wrapped rfl

theorem sectioned_html (lines : List HtmlLine) :
    Sectioned (wrapped .htmlBlock (lines.flatMap HtmlLine.events)) := by
  -- white space before a line is a text of its own
  have hline : ∀ l : HtmlLine, ∃ chunks : List Chunk, l.events = chunks.map Chunk.event := by
    intro l
    unfold HtmlLine.events
    split
    · exact ⟨[.line l.text], rfl⟩
    · exact ⟨[.text _, .line l.text], rfl⟩
  have hlines : ∃ chunks : List Chunk, lines.flatMap HtmlLine.events = chunks.map Chunk.event := by
    induction lines with
    | nil => exact ⟨[], rfl⟩
    | cons l lines ih =>
      obtain ⟨first, hfirst⟩ := hline l
      obtain ⟨chunks, hchunks⟩ := ih
      exact ⟨first ++ chunks, by rw [List.flatMap_cons, hfirst, hchunks, List.map_append]⟩
  obtain ⟨chunks, hchunks⟩ := hlines
  rw [hchunks]
  exact ⟨_, .html chunks, by simp [Section.events]⟩

mutual

theorem Block.sectioned (definitions : List Definition) (tight : Bool) :
    ∀ b : Block, Sectioned (b.events definitions tight)
  | .paragraph p => by
    rw [Block.events]
    split
    · exact p.sectioned definitions
    · exact (p.sectioned definitions).wrapped rfl
  | .heading level p => (p.sectioned definitions).wrapped rfl
  | .rule => .one rfl (by simp)
  | .code text => ⟨_, .code [text], rfl⟩
  | .html lines => sectioned_html lines
  | .quote children => (sectioned_blockEvents definitions false children).wrapped rfl
  | .list start tight items => (sectioned_blockEvents definitions tight items).wrapped rfl
  | .item children => (sectioned_blockEvents definitions tight children).wrapped rfl
  | .table columns head rows => by
    rw [Block.events]
    refine Sectioned.wrapped (.append ?_ (.flatMap fun row _ => ?_)) rfl
    · exact (sectioned_cellEvents definitions head).wrapped rfl
    · exact (sectioned_cellEvents definitions row).wrapped rfl

theorem sectioned_blockEvents (definitions : List Definition) (tight : Bool) :
    ∀ blocks : List Block, Sectioned (blockEvents definitions tight blocks)
  | [] => .nil
  | b :: blocks =>
    (Block.sectioned definitions tight b).append (sectioned_blockEvents definitions tight blocks)

end

theorem sectioned_events (text : String) : Sectioned (events text) :=
  sectioned_blockEvents ..

end DocSite.Markdown
