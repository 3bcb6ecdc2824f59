import DocSite.Proofs.DocComment.Block
import DocSite.Proofs.Markdown.Section
import DocSite.Proofs.Markdown.Writer

namespace DocSite.DocComment

open Markdown (Event Tag Section Chunk wrapped)

variable {snippet : String → String} {tag : Tag} {pick : Event → Option String} {e : Event}
variable {out given inner before after : List Event}

/-- The events that are written for a section. -/
def shown (snippet : String → String) : Section → List Event
  | .code texts => [sample snippet (String.join texts)]
  | .html chunks =>
    (chunks.filterMap Chunk.text?).map .text ++
      [htmlBlock snippet (String.join (chunks.filterMap Chunk.line?))]
  | .one (.inlineHtml tag) _ => [if isCodeTag tag then .html tag else .text tag]
  | .one e _ => [e]

namespace State

theorem foldl_texts (texts : List String) (code : String) (raw : Option String) :
    (texts.map Event.text).foldl (step snippet) ⟨some code, raw, out⟩ =
      ⟨some (code ++ String.join texts), raw, out⟩ := by
  induction texts generalizing code with
  | nil => simp
  | cons text texts ih =>
    have hstep : step snippet ⟨some code, raw, out⟩ (.text text) =
        ⟨some (code ++ text), raw, out⟩ := rfl
    rw [List.map_cons, List.foldl_cons, hstep, ih, String.join_cons, String.append_assoc]

/-- Texts in a block of HTML are written before the block, which is kept back to its end. -/
theorem foldl_chunks (chunks : List Chunk) (block : String) :
    (chunks.map Chunk.event).foldl (step snippet) ⟨none, some block, out⟩ =
      ⟨none, some (block ++ String.join (chunks.filterMap Chunk.line?)),
        out ++ (chunks.filterMap Chunk.text?).map .text⟩ := by
  induction chunks generalizing block out with
  | nil => simp
  | cons chunk chunks ih =>
    rw [List.map_cons, List.foldl_cons]
    cases chunk with
    | text s =>
      have hstep : step snippet ⟨none, some block, out⟩ (.text s) =
          ⟨none, some block, out ++ [.text s]⟩ := rfl
      rw [Chunk.event, hstep, ih]
      simp [List.filterMap_cons, Chunk.line?, Chunk.text?]
    | line s =>
      have hstep : step snippet ⟨none, some block, out⟩ (.html s) =
          ⟨none, some (block ++ s), out⟩ := rfl
      rw [Chunk.event, hstep, ih]
      simp [List.filterMap_cons, Chunk.line?, Chunk.text?, String.append_assoc]

/-- Outside blocks of code and HTML a section is taken in as a whole. -/
theorem foldl_section (sec : Section) :
    sec.events.foldl (step snippet) ⟨none, none, out⟩ =
      ⟨none, none, out ++ shown snippet sec⟩ := by
  cases sec with
  | code texts =>
    have hstart : step snippet ⟨none, none, out⟩ (.start .codeBlock) = ⟨some "", none, out⟩ := rfl
    rw [Section.events, Markdown.wrapped, List.foldl_cons, hstart, List.foldl_append, foldl_texts,
      String.empty_append]
    rfl
  | html chunks =>
    have hstart : step snippet ⟨none, none, out⟩ (.start .htmlBlock) = ⟨none, some "", out⟩ := rfl
    rw [Section.events, Markdown.wrapped, List.foldl_cons, hstart, List.foldl_append, foldl_chunks,
      String.empty_append, shown, ← List.append_assoc]
    rfl
  | one e plain =>
    cases e with
    | start tag => cases tag <;> first | rfl | contradiction
    | stop tag => cases tag <;> first | rfl | contradiction
    | html line => contradiction
    | _ => rfl

end State

/-- Every section is written by itself, so nothing of a section is lost. -/
theorem transform_sections (snippet : String → String) (sections : List Section) :
    transform snippet (sections.flatMap Section.events) = sections.flatMap (shown snippet) := by
  have hfold : ∀ out, (sections.flatMap Section.events).foldl (State.step snippet)
      ⟨none, none, out⟩ = ⟨none, none, out ++ sections.flatMap (shown snippet)⟩ := by
    induction sections with
    | nil => simp
    | cons sec sections ih =>
      intro out
      rw [List.flatMap_cons, List.foldl_append, State.foldl_section, ih, List.flatMap_cons,
        List.append_assoc]
  rw [transform, hfold [], List.nil_append]

/-- What is shown for nested sections closes every image that it opens, also if the marks of some
tags are left out. -/
theorem closed_shown {sections : List Section} (h : Markdown.Nested sections) {keep : Event → Bool}
    (hkeep : ∀ tag, keep (.start tag) = keep (.stop tag)) :
    Markdown.Closed ((sections.flatMap (shown snippet)).filter keep) := by
  have hone : ∀ e : Event, (∀ tag, e ≠ .start tag ∧ e ≠ .stop tag) →
      Markdown.Closed ([e].filter keep) := by
    intro e he
    rw [List.filter_cons, List.filter_nil]
    split
    · exact Markdown.closed_one he
    · exact Markdown.closed_nil
  have htexts : ∀ texts : List String, Markdown.Closed ((texts.map Event.text).filter keep) := by
    intro texts
    induction texts with
    | nil => exact Markdown.closed_nil
    | cons text texts ih =>
      rw [List.map_cons, ← List.singleton_append, List.filter_append]
      exact (hone _ (by simp)).append ih
  induction h with
  | nil => exact Markdown.closed_nil
  | code texts => exact hone _ (by simp [sample])
  | html chunks =>
    rw [List.flatMap_singleton, shown, List.filter_append]
    apply (htexts _).append
    apply hone
    rcases htmlBlock_cases snippet (String.join (chunks.filterMap Chunk.line?)) with
      ⟨code, -, hblock⟩ | ⟨-, hblock⟩ <;> simp [hblock, sample]
  | @one e plain he =>
    rw [List.flatMap_singleton]
    cases e with
    | start tag => exact absurd rfl (he tag).1
    | stop tag => exact absurd rfl (he tag).2
    | inlineHtml tag =>
      refine hone (if isCodeTag tag then .html tag else .text tag) ?_
      split <;> simp
    | _ => exact hone _ he
  | append _ _ iha ihb =>
    rw [List.flatMap_append, List.filter_append]
    exact iha.append ihb
  | @wrap tag inner start stop _ ih =>
    have hshown : (Section.one (.start tag) start :: (inner ++ [.one (.stop tag) stop])).flatMap
        (shown snippet) = .start tag :: (inner.flatMap (shown snippet) ++ [.stop tag]) := by
      rw [List.flatMap_cons, List.flatMap_append]
      rfl
    rw [hshown, List.filter_cons, List.filter_append, List.filter_cons, List.filter_nil, ← hkeep]
    split
    · exact ih.wrap
    · rwa [List.append_nil]

/-- What an event adds is written, whatever comes after it. -/
theorem mem_transform {x : Event} (after : List Event)
    (hx : x ∈ (before.foldl (State.step snippet) {}).added snippet e) :
    x ∈ transform snippet (before ++ e :: after) := by
  rw [transform, List.foldl_append, List.foldl_cons]
  apply State.foldl_out
  rw [State.step_out]
  exact List.mem_append_right _ hx

/-- At the end of a block all that is in it is held, whatever came before the block. -/
theorem foldl_block (hinner : Unmarked tag inner) (before : List Event) (held : Option String) :
    (before ++ .start tag :: inner).foldl (heldAfter tag pick) held =
      some (String.join (inner.filterMap pick)) := by
  have hstart : ∀ held, heldAfter tag pick held (.start tag) = some "" := fun _ => if_pos rfl
  rw [List.foldl_append, List.foldl_cons, hstart, foldl_heldAfter hinner, String.empty_append]

/-- What the end of a block adds is written, wherever the block stands. -/
theorem mem_transform_of_blockIn {x : Event} (h : BlockIn tag given inner)
    (hx : ∀ before,
      x ∈ ((before ++ .start tag :: inner).foldl (State.step snippet) {}).added snippet
        (.stop tag)) :
    x ∈ transform snippet given := by
  obtain ⟨before, after, rfl, -⟩ := h
  have hsplit : before ++ wrapped tag inner ++ after =
      (before ++ .start tag :: inner) ++ .stop tag :: after := by simp [wrapped]
  rw [hsplit]
  exact mem_transform after (hx before)

theorem code_written (h : BlockIn .codeBlock given inner) :
    sample snippet (textIn inner) ∈ transform snippet given := by
  have ⟨_, _, _, hinner⟩ := h
  refine mem_transform_of_blockIn h fun before => ?_
  rw [State.added, State.foldl_code, foldl_block hinner]
  exact .head _

theorem html_written (snippet : String → String) (h : BlockIn .htmlBlock given inner) :
    htmlBlock snippet (htmlIn inner) ∈ transform snippet given := by
  have ⟨_, _, _, hinner⟩ := h
  refine mem_transform_of_blockIn h fun before => ?_
  rw [State.added, State.foldl_raw, foldl_block hinner]
  exact .head _

theorem text_written {t : String} (hopen : ∀ inner, ¬OpenIn .codeBlock before inner) :
    .text t ∈ transform snippet (before ++ .text t :: after) := by
  apply mem_transform
  cases hcode : (before.foldl (State.step snippet) {}).code with
  | none => simp [State.added, hcode]
  | some c =>
    obtain ⟨inner, hinner, -⟩ := (Taken.ofEvents snippet before).code c hcode
    exact absurd hinner (hopen inner)

theorem line_written {l : String} (hopen : ∀ inner, ¬OpenIn .htmlBlock before inner) :
    .text l ∈ transform snippet (before ++ .html l :: after) := by
  apply mem_transform
  cases hraw : (before.foldl (State.step snippet) {}).raw with
  | none => simp [State.added, hraw]
  | some block =>
    obtain ⟨inner, hinner, -⟩ := (Taken.ofEvents snippet before).raw block hraw
    exact absurd hinner (hopen inner)

/-- What is written for events, whatever these are. The only HTML is that of `code` tags and of
samples, all other HTML is text, and nothing is lost that is in a whole block or outside blocks. -/
structure WrittenFor (snippet : String → String) (given out : List Event) : Prop where
  no_inlineHtml : ∀ t, .inlineHtml t ∉ out
  html_kept : ∀ html, .html html ∈ out → IsKept snippet given html
  tag : ∀ t, .inlineHtml t ∈ given → (if isCodeTag t then .html t else .text t) ∈ out
  code : ∀ inner, BlockIn .codeBlock given inner → sample snippet (textIn inner) ∈ out
  html : ∀ inner, BlockIn .htmlBlock given inner →
    (∃ code, Text.trim (htmlIn inner) = "<code>" ++ code ++ "</code>" ∧ sample snippet code ∈ out) ∨
    (∀ code, Text.trim (htmlIn inner) ≠ "<code>" ++ code ++ "</code>") ∧ .text (htmlIn inner) ∈ out
  text : ∀ before t after, given = before ++ .text t :: after →
    (∀ inner, ¬OpenIn .codeBlock before inner) → .text t ∈ out
  line : ∀ before l after, given = before ++ .html l :: after →
    (∀ inner, ¬OpenIn .htmlBlock before inner) → .text l ∈ out
  other : ∀ e ∈ given, e.isPlain = true → (∀ t, e ≠ .text t) → (∀ t, e ≠ .inlineHtml t) → e ∈ out

theorem writtenFor_transform (snippet : String → String) (given : List Event) :
    WrittenFor snippet given (transform snippet given) where
  no_inlineHtml := (Taken.ofEvents snippet given).no_inlineHtml
  html_kept := (Taken.ofEvents snippet given).kept
  tag t ht := by
    obtain ⟨before, after, rfl⟩ := List.append_of_mem ht
    exact mem_transform after (.head _)
  code _ := code_written
  html inner hinner := by
    have hblock := html_written snippet hinner
    rcases htmlBlock_cases snippet (htmlIn inner) with ⟨code, hcode, heq⟩ | ⟨hnone, heq⟩
    · exact .inl ⟨code, hcode, heq ▸ hblock⟩
    · exact .inr ⟨hnone, heq ▸ hblock⟩
  text before t after := by
    rintro rfl
    exact text_written
  line before l after := by
    rintro rfl
    exact line_written
  other e he hplain htext htag := by
    obtain ⟨before, after, rfl⟩ := List.append_of_mem he
    apply mem_transform
    cases e with
    | start tag => cases tag <;> first | exact .head _ | contradiction
    | stop tag => cases tag <;> first | exact .head _ | contradiction
    | text t => exact absurd rfl (htext t)
    | html l => contradiction
    | inlineHtml t => exact absurd rfl (htag t)
    | _ => exact .head _

/-- The page of some events: besides HTML that may be written it is the writer's own tags and
escaped text, and each text is on it. -/
structure PageOf (raw : String → Prop) (events : List Event) (page : String) : Prop where
  page_eq : page = Markdown.renderHtml events
  written : ∃ inImage, Markdown.Written raw inImage page
  escaped : ∀ t, .text t ∈ events → Markdown.HasEscaped page t

theorem WrittenFor.raw_of_mem_filter (h : WrittenFor snippet given out) (keep : Event → Bool)
    (html : String) (hin : .html html ∈ out.filter keep ∨ .inlineHtml html ∈ out.filter keep) :
    IsKept snippet given html := by
  rcases hin with hhtml | htag
  · exact h.html_kept html (List.mem_filter.1 hhtml).1
  · exact absurd (List.mem_filter.1 htag).1 (h.no_inlineHtml html)

theorem WrittenFor.pageOf (h : WrittenFor snippet given out) (keep : Event → Bool) :
    PageOf (IsKept snippet given) (out.filter keep) (Markdown.renderHtml (out.filter keep)) where
  page_eq := rfl
  written := Markdown.exists_written_renderHtml (h.raw_of_mem_filter keep)
  escaped _ := Markdown.hasEscaped_renderHtml

/-- Whatever reads the comment, no tag in it stays HTML but those of `code`, and besides these the
only HTML that is written is that of samples, for blocks of code and for blocks of HTML that are one
`code` element. All else that is in the comment is written as text. On the page it is escaped, which
leaves no markup in it. If the events are those of nested sections, each section is written by itself
in its place. A plain sample holds no markup either. -/
theorem html_of_comment (read : String → List Event) (snippet : String → String)
    (comment : String) :
    WrittenFor snippet (read (Text.trim comment)) (eventsOf read snippet comment) ∧
    PageOf (IsKept snippet (read (Text.trim comment))) (eventsOf read snippet comment)
      (blockOf read snippet comment) ∧
    (∃ page, PageOf (IsKept snippet (read (Text.trim comment)))
        ((eventsOf read snippet comment).filter (!marksParagraph ·)) page ∧
      lineOf read snippet comment = Text.trimEnd page) ∧
    (∀ sections, Markdown.Nested sections →
      read (Text.trim comment) = sections.flatMap Section.events →
      eventsOf read snippet comment = sections.flatMap (shown snippet) ∧
      Markdown.Written (IsKept snippet (read (Text.trim comment))) false
        (blockOf read snippet comment) ∧
      ∃ page, Markdown.Written (IsKept snippet (read (Text.trim comment))) false page ∧
        lineOf read snippet comment = Text.trimEnd page) ∧
    block snippet comment = blockOf Markdown.events snippet comment ∧
    line snippet comment = lineOf Markdown.events snippet comment ∧
    (∀ s, Text.Lacks ['<', '>'] (Markdown.escapeBody s).toList ∧
      Text.Harmless (Text.escapeHtml s).toList ∧
      Text.Harmless (Markdown.escapeAddress s).toList) ∧
    ∀ code, Text.Harmless (Highlight.plainSnippet code).toList := by
  have hwritten : WrittenFor snippet (read (Text.trim comment)) (eventsOf read snippet comment) :=
    writtenFor_transform snippet _
  refine ⟨hwritten, ?_, ⟨_, hwritten.pageOf (!marksParagraph ·), rfl⟩, ?_, rfl, rfl, ?_, ?_⟩
  · have hpage := hwritten.pageOf fun _ => true
    rwa [List.filter_eq_self.2 fun _ _ => rfl] at hpage
  · intro sections hnested hsections
    have hevents : eventsOf read snippet comment = sections.flatMap (shown snippet) := by
      rw [eventsOf, hsections, transform_sections]
    have hclosed : ∀ keep : Event → Bool, (∀ tag, keep (.start tag) = keep (.stop tag)) →
        Markdown.Written (IsKept snippet (read (Text.trim comment))) false
          (Markdown.renderHtml ((eventsOf read snippet comment).filter keep)) := by
      intro keep hkeep
      apply Markdown.written_renderHtml
      · rw [hevents]
        exact closed_shown hnested hkeep
      · exact hwritten.raw_of_mem_filter keep
    have hblock := hclosed (fun _ => true) fun _ => rfl
    rw [List.filter_eq_self.2 fun _ _ => rfl] at hblock
    have hline := hclosed (!marksParagraph ·) fun tag => by cases tag <;> rfl
    exact ⟨hevents, hblock, _, hline, rfl⟩
  · exact fun s => ⟨Markdown.lacks_escapeBody s, Text.harmless_escapeHtml s,
      Markdown.harmless_escapeAddress s⟩
  · exact fun code => Text.harmless_escapeHtml _

def rawComment : String :=
  "a <b>x</b> <Code>y</Code>\n\n<script>z</script>\n\n<code>\n\tif (x < 1) f();\n</code>"

def rawEvents : List Event := [
  .start .paragraph, .text "a ", .inlineHtml "<b>", .text "x", .inlineHtml "</b>", .text " ",
  .inlineHtml "<Code>", .text "y", .inlineHtml "</Code>", .stop .paragraph,
  .start .htmlBlock, .html "<script>z</script>\n", .stop .htmlBlock,
  .start .htmlBlock, .html "<code>\n", .html "\tif (x < 1) f();\n", .html "</code>",
  .stop .htmlBlock]

/-- A comment with tags in a phrase, a script and a sample of code. -/
theorem html_of_comment_raw :
    Markdown.events (Text.trim rawComment) = rawEvents ∧
    .text "<b>" ∈ eventsOf Markdown.events Highlight.plainSnippet rawComment ∧
    .html "<Code>" ∈ eventsOf Markdown.events Highlight.plainSnippet rawComment ∧
    .text "<script>z</script>\n" ∈ eventsOf Markdown.events Highlight.plainSnippet rawComment ∧
    sample Highlight.plainSnippet "\n\tif (x < 1) f();\n" ∈
      eventsOf Markdown.events Highlight.plainSnippet rawComment ∧
    Markdown.HasEscaped (block Highlight.plainSnippet rawComment) "<script>z</script>\n" ∧
    Markdown.Written (IsKept Highlight.plainSnippet rawEvents) false
      (block Highlight.plainSnippet rawComment) ∧
    block Highlight.plainSnippet rawComment =
      "<p>a &lt;b&gt;x&lt;/b&gt; <Code>y</Code></p>\n&lt;script&gt;z&lt;/script&gt;\n" ++
      "<pre><code>    if (x &lt; 1) f();</code></pre>\n" := by
  have hread : Markdown.events (Text.trim rawComment) = rawEvents := by decide +kernel
  obtain ⟨hwritten, hpage, -, hnested, hblock, -⟩ :=
    html_of_comment Markdown.events Highlight.plainSnippet rawComment
  obtain ⟨sections, hsections, hevents⟩ := Markdown.sectioned_events (Text.trim rawComment)
  rw [hread] at hwritten hpage hnested
  rw [hread] at hevents
  have hscript : BlockIn .htmlBlock rawEvents [.html "<script>z</script>\n"] :=
    ⟨rawEvents.take 10, rawEvents.drop 13, rfl, by decide, by decide⟩
  have hcode : BlockIn .htmlBlock rawEvents
      [.html "<code>\n", .html "\tif (x < 1) f();\n", .html "</code>"] :=
    ⟨rawEvents.take 13, [], rfl, by decide, by decide⟩
  have htext : .text "<script>z</script>\n" ∈
      eventsOf Markdown.events Highlight.plainSnippet rawComment := by
    rcases hwritten.html _ hscript with ⟨code, hcode, -⟩ | ⟨-, htext⟩
    · have hno : sampleIn? (htmlIn [.html "<script>z</script>\n"]) = none := by decide
      rw [sampleIn?_eq_some_iff.2 hcode] at hno
      cases hno
    · exact htext
  refine ⟨hread, hwritten.tag "<b>" (by decide), hwritten.tag "<Code>" (by decide), htext, ?_,
    hblock ▸ hpage.escaped _ htext, hblock ▸ (hnested sections hsections hevents).2.1, ?_⟩
  · rcases hwritten.html _ hcode with ⟨code, hcode, hsample⟩ | ⟨hno, -⟩
    · have hsome : sampleIn? (htmlIn [.html "<code>\n", .html "\tif (x < 1) f();\n",
          .html "</code>"]) = some "\n\tif (x < 1) f();\n" := by decide
      rw [sampleIn?_eq_some_iff.2 hcode] at hsome
      cases hsome
      exact hsample
    · exact absurd (by decide) (hno "\n\tif (x < 1) f();\n")
  · rw [block, hpage.page_eq, eventsOf, hread]
    decide +kernel

end DocSite.DocComment
