import DocSite.Markdown.Writer
import DocSite.Proofs.Text.Escape

namespace DocSite.Markdown

theorem lacks_escapeBody (s : String) : Text.Lacks ['<', '>'] (escapeBody s).toList := by
  rw [escapeBody, String.toList_ofList]
  refine Text.Lacks.flatMap (fun c => ?_) s.toList
  unfold escapeBodyChar
  split
  · exact Text.lacks_of_all (by decide)
  · exact Text.lacks_of_all (by decide)
  · exact Text.lacks_of_all (by decide)
  · rename_i hlt hgt
    rw [Text.lacks_singleton]
    simp only [List.mem_cons, List.not_mem_nil, or_false, not_or]
    exact ⟨hlt, hgt⟩

theorem harmless_hexPair (b : UInt8) : Text.Harmless (hexPair b) := by
  have hdigit : ∀ n < 16, (if n < 10 then Char.ofNat (48 + n) else Char.ofNat (55 + n)) ∉
      ['<', '>', '"', '\''] := by decide
  have hb : b.toNat < 256 := b.toNat_lt
  intro c hc
  simp only [hexPair, List.mem_cons, List.not_mem_nil, or_false] at hc
  rcases hc with rfl | rfl
  · exact hdigit _ (by omega)
  · exact hdigit _ (by omega)

theorem harmless_escapeAddress (s : String) : Text.Harmless (escapeAddress s).toList := by
  rw [escapeAddress, String.toList_ofList]
  refine Text.Lacks.flatMap (fun c => ?_) s.toList
  unfold escapeAddressChar
  split
  · exact Text.lacks_of_all (by decide)
  split
  · exact Text.lacks_of_all (by decide)
  split
  · rename_i haddress
    rw [Text.lacks_singleton]
    intro hc
    simp only [List.mem_cons, List.not_mem_nil, or_false] at hc
    rcases hc with rfl | rfl | rfl | rfl <;> exact absurd haddress (by decide)
  · intro d hd
    obtain ⟨b, -, hd⟩ := List.mem_flatMap.1 hd
    rcases List.mem_cons.1 hd with rfl | hd
    · decide
    · exact harmless_hexPair b d hd

def ownTags : List String := [
  "\n", "<p>", "</p>\n", "<blockquote>\n", "</blockquote>\n", "<pre><code>", "</code></pre>\n",
  "<ul>\n", "</ul>\n", "<ol>\n", "</ol>\n", "<li>", "</li>\n", "<table>", "</tbody></table>\n",
  "<thead><tr>", "</tr></thead><tbody>\n", "<tr>", "</tr>\n",
  "<th>", "<th style=\"text-align: left\">", "<th style=\"text-align: center\">",
  "<th style=\"text-align: right\">", "</th>",
  "<td>", "<td style=\"text-align: left\">", "<td style=\"text-align: center\">",
  "<td style=\"text-align: right\">", "</td>",
  "<em>", "</em>", "<strong>", "</strong>", "<del>", "</del>", "</a>", "<code>", "</code>",
  "<br />\n", "<hr />\n"]

/-- The title attribute of a link or an image, if it has a title, up to its last quotation mark. -/
def titleText (title : String) : String :=
  if title = "" then "" else "\" title=\"" ++ Text.escapeHtml title

/-- What can have been written if HTML is that of `raw` only, and whether the text that stands for
an image is being written, which is an attribute. -/
inductive Written (raw : String → Prop) : Bool → String → Prop
  | nil : Written raw false ""
  | own {out tag : String} : tag ∈ ownTags → Written raw false out → Written raw false (out ++ tag)
  | heading {out : String} (level : Nat) : Written raw false out →
      Written raw false (out ++ s!"<h{level}>")
  | headingEnd {out : String} (level : Nat) : Written raw false out →
      Written raw false (out ++ s!"</h{level}>\n")
  | listFrom {out : String} (start : Nat) : Written raw false out →
      Written raw false (out ++ s!"<ol start=\"{start}\">\n")
  | link {out scheme : String} (address title : String) : scheme ∈ ["", "mailto:"] →
      Written raw false out →
      Written raw false (out ++ ("<a href=\"" ++ scheme ++ escapeAddress address ++
        titleText title ++ "\">"))
  | text {out : String} (s : String) : Written raw false out →
      Written raw false (out ++ escapeBody s)
  | html {out s : String} : raw s → Written raw false out → Written raw false (out ++ s)
  | image {out : String} (address : String) : Written raw false out →
      Written raw true (out ++ ("<img src=\"" ++ escapeAddress address ++ "\" alt=\""))
  | caption {out : String} (s : String) : Written raw true out →
      Written raw true (out ++ Text.escapeHtml s)
  | space {out : String} : Written raw true out → Written raw true (out ++ " ")
  | imageEnd {out : String} (title : String) : Written raw true out →
      Written raw false (out ++ (titleText title ++ "\" />"))

namespace Writer

variable {raw : String → Prop} {w : Writer} {s : String}

@[simp] theorem put_out (w : Writer) (s : String) : (w.put s).out = w.out ++ s := by
  unfold put
  split
  · rename_i hs
    rw [hs, String.append_empty]
  · rfl

@[simp] theorem put_caption (w : Writer) (s : String) : (w.put s).caption = w.caption := by
  unfold put
  split <;> rfl

@[simp] theorem putFresh_caption (w : Writer) (s : String) :
    (w.putFresh s).caption = w.caption := put_caption ..

@[simp] theorem putTitle_out (w : Writer) (title : String) :
    (w.putTitle title).out = w.out ++ titleText title := by
  unfold putTitle titleText
  split
  · rw [String.append_empty]
  · rw [put_out, put_out, String.append_assoc]

@[simp] theorem putTitle_caption (w : Writer) (title : String) :
    (w.putTitle title).caption = w.caption := by
  unfold putTitle
  split
  · rfl
  · rw [put_caption, put_caption]

theorem written_putFresh (h : Written raw false w.out)
    (hs : ∀ {out}, Written raw false out → Written raw false (out ++ s)) :
    Written raw false (w.putFresh s).out := by
  unfold putFresh
  rw [put_out]
  split
  · exact hs h
  · rw [← String.append_assoc]
    exact hs (.own (by decide) h)

theorem written_startTag (tag : Tag) (hcaption : w.caption = none) (h : Written raw false w.out) :
    Written raw (w.startTag tag).caption.isSome (w.startTag tag).out := by
  have hown : ∀ {s}, s ∈ ownTags → Written raw false (w.out ++ s) := fun hs => .own hs h
  have hfresh : ∀ {s}, s ∈ ownTags → Written raw false (w.putFresh s).out :=
    fun hs => written_putFresh h (.own hs)
  cases tag with
  | paragraph => simpa [startTag, hcaption] using hfresh (by decide)
  | heading level => simpa [startTag, hcaption] using written_putFresh h (.heading level)
  | quote => simpa [startTag, hcaption] using hfresh (by decide)
  | codeBlock => simpa [startTag, hcaption] using hfresh (by decide)
  | htmlBlock => simpa [startTag, hcaption] using h
  | list start =>
    cases start with
    | none => simpa [startTag, hcaption] using hfresh (by decide)
    | some n =>
      by_cases hn : n = 1
      · subst hn
        simpa [startTag, hcaption] using hfresh (by decide)
      · have hlist : w.startTag (.list (some n)) = w.putFresh s!"<ol start=\"{n}\">\n" := by
          rw [startTag]
          exact hn
        rw [hlist, putFresh_caption, hcaption]
        exact written_putFresh h (.listFrom n)
  | item => simpa [startTag, hcaption] using hfresh (by decide)
  | table columns => simpa [startTag, hcaption] using hown (by decide)
  | tableHead => simpa [startTag, hcaption] using hown (by decide)
  | tableRow => simpa [startTag, hcaption] using hown (by decide)
  | tableCell =>
    have hcell : (if w.inHead then "<th" else "<td") ++ cellStyle w.columns[w.cell]? ∈ ownTags := by
      cases w.columns[w.cell]? with
      | none => split <;> decide
      | some a => cases a <;> split <;> decide
    simpa [startTag, hcaption, String.append_assoc] using hown hcell
  | emphasis => simpa [startTag, hcaption] using hown (by decide)
  | strong => simpa [startTag, hcaption] using hown (by decide)
  | strikethrough => simpa [startTag, hcaption] using hown (by decide)
  | link toMail address title =>
    have hlink : ∀ scheme ∈ ["", "mailto:"], Written raw false (w.out ++
        ("<a href=\"" ++ scheme ++ escapeAddress address ++ titleText title ++ "\">")) :=
      fun scheme hscheme => .link address title hscheme h
    have hopen : "<a href=\"mailto:" = "<a href=\"" ++ "mailto:" := by decide
    cases toMail with
    | false => simpa [startTag, hcaption, String.append_assoc] using hlink "" (by decide)
    | true =>
      simpa [startTag, hcaption, String.append_assoc, hopen] using hlink "mailto:" (by decide)
  | image address title =>
    simpa [startTag, String.append_assoc] using Written.image address h

theorem written_stopTag (tag : Tag) (hcaption : w.caption = none) (h : Written raw false w.out) :
    Written raw (w.stopTag tag).caption.isSome (w.stopTag tag).out := by
  have hown : ∀ {s}, s ∈ ownTags → Written raw false (w.out ++ s) := fun hs => .own hs h
  cases tag with
  | heading level => simpa [stopTag, hcaption] using Written.headingEnd level h
  | htmlBlock => simpa [stopTag, hcaption] using h
  | image address title => simpa [stopTag, hcaption] using h
  | list start => cases start <;> simpa [stopTag, hcaption] using hown (by decide)
  | tableCell =>
    have hcell : (if w.inHead then "</th>" else "</td>") ∈ ownTags := by split <;> decide
    simpa [stopTag, hcaption] using hown hcell
  | _ => simpa [stopTag, hcaption] using hown (by decide)

theorem written_event {e : Event} (hcaption : w.caption = none) (h : Written raw false w.out)
    (hraw : ∀ s, e = .html s ∨ e = .inlineHtml s → raw s) :
    Written raw (w.event e).caption.isSome (w.event e).out := by
  have hown : ∀ {s}, s ∈ ownTags → Written raw false (w.out ++ s) := fun hs => .own hs h
  cases e with
  | start tag => exact written_startTag tag hcaption h
  | stop tag => exact written_stopTag tag hcaption h
  | text s => simpa [event, hcaption] using Written.text s h
  | code s =>
    have hcode : Written raw false (w.out ++ "<code>" ++ escapeBody s ++ "</code>") :=
      .own (by decide) (.text s (.own (by decide) h))
    simpa [event, hcaption] using hcode
  | html s => simpa [event, hcaption] using Written.html (hraw s (.inl rfl)) h
  | inlineHtml s => simpa [event, hcaption] using Written.html (hraw s (.inr rfl)) h
  | softBreak => simpa [event, hcaption] using hown (by decide)
  | hardBreak => simpa [event, hcaption] using hown (by decide)
  | rule => simpa [event, hcaption] using written_putFresh h (.own (by decide))

theorem written_captionEvent {c : Caption} {e : Event} (hcaption : w.caption = some c)
    (h : Written raw true w.out) :
    Written raw (w.captionEvent c e).caption.isSome (w.captionEvent c e).out := by
  cases e with
  | start tag => exact h
  | stop tag =>
    rw [captionEvent]
    split
    · simpa [String.append_assoc] using Written.imageEnd c.title h
    · exact h
  | html s => simpa [captionEvent, hcaption] using h
  | text s => simpa [captionEvent, hcaption] using Written.caption s h
  | code s => simpa [captionEvent, hcaption] using Written.caption s h
  | inlineHtml s => simpa [captionEvent, hcaption] using Written.caption s h
  | softBreak => simpa [captionEvent, hcaption] using Written.space h
  | hardBreak => simpa [captionEvent, hcaption] using Written.space h
  | rule => simpa [captionEvent, hcaption] using Written.space h

theorem written_step {e : Event} (h : Written raw w.caption.isSome w.out)
    (hraw : ∀ s, e = .html s ∨ e = .inlineHtml s → raw s) :
    Written raw (w.step e).caption.isSome (w.step e).out := by
  unfold step
  split
  · rename_i c hcaption
    rw [hcaption] at h
    exact written_captionEvent hcaption h
  · rename_i hcaption
    rw [hcaption] at h
    exact written_event hcaption h hraw

theorem stopTag_caption (w : Writer) (tag : Tag) : (w.stopTag tag).caption = w.caption := by
  cases tag with
  | list start => cases start <;> simp [stopTag]
  | _ => simp [stopTag]

theorem startTag_caption (w : Writer) (tag : Tag) : (w.startTag tag).caption = w.caption ∨
    ∃ title, (w.startTag tag).caption = some ⟨0, title⟩ := by
  cases tag with
  | image address title => exact .inr ⟨title, rfl⟩
  | list start =>
    match start with
    | none | some 0 | some 1 | some (n + 2) => exact .inl (by simp [startTag])
  | _ => exact .inl (by simp [startTag])

end Writer

/-- Events that leave the writer in the image that it is in, or outside images. -/
def Closed (events : List Event) : Prop :=
  ∀ w : Writer, (events.foldl Writer.step w).caption = w.caption

section Closed

variable {a b inner : List Event} {e : Event} {tag : Tag}

theorem closed_nil : Closed [] := fun _ => rfl

theorem closed_one (he : ∀ tag, e ≠ .start tag ∧ e ≠ .stop tag) : Closed [e] := by
  intro w
  rw [List.foldl_cons, List.foldl_nil, Writer.step]
  split
  · rename_i c hcaption
    cases e with
    | start tag => exact absurd rfl (he tag).1
    | stop tag => exact absurd rfl (he tag).2
    | _ => simp [Writer.captionEvent, hcaption]
  · rename_i hcaption
    cases e with
    | start tag => exact absurd rfl (he tag).1
    | stop tag => exact absurd rfl (he tag).2
    | _ => simp [Writer.event, hcaption]

theorem Closed.append (ha : Closed a) (hb : Closed b) : Closed (a ++ b) := by
  intro w
  rw [List.foldl_append, hb, ha]

theorem Closed.wrap (h : Closed inner) : Closed (.start tag :: (inner ++ [.stop tag])) := by
  intro w
  rw [List.foldl_cons, List.foldl_append, List.foldl_cons, List.foldl_nil]
  have hinner := h (w.step (.start tag))
  generalize inner.foldl Writer.step (w.step (.start tag)) = v at hinner
  cases hw : w.caption with
  | some c =>
    -- inside an image only the depth changes
    have hv : v.caption = some ⟨c.depth + 1, c.title⟩ := by
      rw [hinner, Writer.step, hw]
      rfl
    rw [Writer.step, hv]
    rfl
  | none =>
    have hstart : w.step (.start tag) = w.startTag tag := by
      rw [Writer.step, hw]
      rfl
    rw [hstart] at hinner
    obtain hplain | ⟨title, himage⟩ := w.startTag_caption tag
    · rw [hplain, hw] at hinner
      rw [Writer.step, hinner]
      exact (v.stopTag_caption tag).trans hinner
    · rw [himage] at hinner
      rw [Writer.step, hinner]
      simp [Writer.captionEvent]

end Closed

theorem written_foldl {raw : String → Prop} {events : List Event} {w : Writer}
    (hraw : ∀ s, .html s ∈ events ∨ .inlineHtml s ∈ events → raw s)
    (h : Written raw w.caption.isSome w.out) :
    Written raw (events.foldl Writer.step w).caption.isSome (events.foldl Writer.step w).out := by
  induction events generalizing w with
  | nil => exact h
  | cons e events ih =>
    apply ih
    · exact fun s hs => hraw s (hs.imp (.tail _) (.tail _))
    · apply Writer.written_step h
      rintro s (rfl | rfl)
      · exact hraw s (.inl (.head _))
      · exact hraw s (.inr (.head _))

theorem exists_written_renderHtml {raw : String → Prop} {events : List Event}
    (hraw : ∀ s, .html s ∈ events ∨ .inlineHtml s ∈ events → raw s) :
    ∃ inImage, Written raw inImage (renderHtml events) :=
  ⟨_, written_foldl hraw .nil⟩

/-- Whatever events are written, the only text that is not escaped is that of events of HTML. -/
theorem written_renderHtml {raw : String → Prop} {events : List Event} (hclosed : Closed events)
    (hraw : ∀ s, .html s ∈ events ∨ .inlineHtml s ∈ events → raw s) :
    Written raw false (renderHtml events) := by
  have hwritten := written_foldl (w := {}) hraw .nil
  rwa [hclosed] at hwritten

namespace Writer

variable {w : Writer}

theorem putFresh_grows (w : Writer) (s : String) : ∃ more, (w.putFresh s).out = w.out ++ more :=
  ⟨_, put_out ..⟩

theorem startTag_grows (w : Writer) (tag : Tag) : ∃ more, (w.startTag tag).out = w.out ++ more := by
  cases tag with
  | list start =>
    match start with
    | none | some 0 | some 1 | some (n + 2) => exact putFresh_grows ..
  | paragraph | heading | quote | codeBlock | item => exact putFresh_grows ..
  | htmlBlock => exact ⟨"", String.append_empty.symm⟩
  | _ => simp [startTag, String.append_assoc]

theorem stopTag_grows (w : Writer) (tag : Tag) : ∃ more, (w.stopTag tag).out = w.out ++ more := by
  cases tag with
  | list start => cases start <;> simp [stopTag]
  | htmlBlock | image => exact ⟨"", String.append_empty.symm⟩
  | _ => simp [stopTag]

/-- Nothing that was written is taken back. -/
theorem step_grows (w : Writer) (e : Event) : ∃ more, (w.step e).out = w.out ++ more := by
  have hsame : ∃ more, w.out = w.out ++ more := ⟨"", String.append_empty.symm⟩
  unfold step
  split
  · rename_i c hcaption
    cases e with
    | stop tag => cases hdepth : c.depth <;> simp [captionEvent, hdepth, String.append_assoc, hsame]
    | _ => simp [captionEvent, hsame]
  · cases e with
    | start tag => exact startTag_grows w tag
    | stop tag => exact stopTag_grows w tag
    | rule => exact putFresh_grows ..
    | _ => simp [event, String.append_assoc]

theorem foldl_grows (events : List Event) (w : Writer) :
    ∃ more, (events.foldl step w).out = w.out ++ more := by
  induction events generalizing w with
  | nil => exact ⟨"", String.append_empty.symm⟩
  | cons e events ih =>
    obtain ⟨first, hfirst⟩ := step_grows w e
    obtain ⟨more, hmore⟩ := ih (w.step e)
    exact ⟨first ++ more, by rw [List.foldl_cons, hmore, hfirst, String.append_assoc]⟩

theorem step_text (w : Writer) (s : String) : (w.step (.text s)).out = w.out ++ escapeBody s ∨
    (w.step (.text s)).out = w.out ++ Text.escapeHtml s := by
  unfold step
  split
  · exact .inr rfl
  · exact .inl rfl

end Writer

/-- The page has the text, escaped for a place between tags or in an attribute. -/
def HasEscaped (page s : String) : Prop :=
  ∃ before after, page = before ++ escapeBody s ++ after ∨ page = before ++ Text.escapeHtml s ++ after

theorem hasEscaped_renderHtml {events : List Event} {s : String} (h : .text s ∈ events) :
    HasEscaped (renderHtml events) s := by
  obtain ⟨before, after, rfl⟩ := List.append_of_mem h
  obtain ⟨more, hmore⟩ := Writer.foldl_grows after
    ((before.foldl Writer.step {}).step (.text s))
  refine ⟨(before.foldl Writer.step {}).out, more, ?_⟩
  rw [renderHtml, List.foldl_append, List.foldl_cons, hmore]
  apply (Writer.step_text (before.foldl Writer.step {}) s).imp
  · exact fun hstep => congrArg (· ++ more) hstep
  · exact fun hstep => congrArg (· ++ more) hstep

end DocSite.Markdown
