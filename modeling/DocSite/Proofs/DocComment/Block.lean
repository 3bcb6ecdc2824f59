import DocSite.DocComment
import DocSite.Proofs.Text.Cut

namespace DocSite.DocComment

open Markdown (Event Tag wrapped)

variable {snippet : String → String} {tag : Tag} {e : Event} {s : State}
variable {pick : Event → Option String} {held : Option String} {done given inner : List Event}

def text? : Event → Option String
  | .text t => some t
  | _ => none

def line? : Event → Option String
  | .html l => some l
  | _ => none

def textIn (events : List Event) : String := String.join (events.filterMap text?)

def htmlIn (events : List Event) : String := String.join (events.filterMap line?)

/-- No block of this kind starts or stops among the events. -/
def Unmarked (tag : Tag) (events : List Event) : Prop :=
  .start tag ∉ events ∧ .stop tag ∉ events

/-- The events `done` leave a block of this kind open, in which the events `inner` are so far. -/
def OpenIn (tag : Tag) (done inner : List Event) : Prop :=
  ∃ earlier, done = earlier ++ .start tag :: inner ∧ Unmarked tag inner

/-- A whole block of this kind with the events `inner` is among the events. -/
def BlockIn (tag : Tag) (given inner : List Event) : Prop :=
  ∃ before after, given = before ++ wrapped tag inner ++ after ∧ Unmarked tag inner

/-- A block of code has this text, or a block of HTML is one `code` element with it. -/
def IsSampleIn (given : List Event) (code : String) : Prop :=
  (∃ inner, BlockIn .codeBlock given inner ∧ textIn inner = code) ∨
    ∃ inner, BlockIn .htmlBlock given inner ∧
      Text.trim (htmlIn inner) = "<code>" ++ code ++ "</code>"

/-- HTML that may be written: a tag of `code` of the comment, or the sample for a block of it. -/
def IsKept (snippet : String → String) (given : List Event) (html : String) : Prop :=
  isCodeTag html = true ∧ .inlineHtml html ∈ given ∨
    ∃ code, html = "<pre><code>" ++ snippet (Text.trimChar '\n' code) ++ "</code></pre>\n" ∧
      IsSampleIn given code

theorem OpenIn.start (done : List Event) (tag : Tag) : OpenIn tag (done ++ [.start tag]) [] :=
  ⟨done, rfl, List.not_mem_nil, List.not_mem_nil⟩

theorem OpenIn.next (h : OpenIn tag done inner) (hstart : e ≠ .start tag) (hstop : e ≠ .stop tag) :
    OpenIn tag (done ++ [e]) (inner ++ [e]) := by
  obtain ⟨earlier, rfl, hinner⟩ := h
  refine ⟨earlier, by simp, ?_⟩
  simpa [Unmarked, hstart.symm, hstop.symm] using hinner

theorem OpenIn.stop (h : OpenIn tag done inner) : BlockIn tag (done ++ [.stop tag]) inner := by
  obtain ⟨earlier, rfl, hinner⟩ := h
  exact ⟨earlier, [], by simp [wrapped], hinner⟩

theorem BlockIn.append (h : BlockIn tag done inner) (more : List Event) :
    BlockIn tag (done ++ more) inner := by
  obtain ⟨before, after, rfl, hinner⟩ := h
  exact ⟨before, after ++ more, by simp, hinner⟩

theorem IsKept.append {html : String} (h : IsKept snippet done html) (more : List Event) :
    IsKept snippet (done ++ more) html := by
  rcases h with ⟨htag, hin⟩ | ⟨code, hhtml, hcode⟩
  · exact .inl ⟨htag, List.mem_append_left more hin⟩
  · refine .inr ⟨code, hhtml, hcode.imp ?_ ?_⟩
    · exact fun ⟨inner, hinner, hcode⟩ => ⟨inner, hinner.append more, hcode⟩
    · exact fun ⟨inner, hinner, hcode⟩ => ⟨inner, hinner.append more, hcode⟩

theorem sampleIn?_eq_some_iff {block code : String} : sampleIn? block = some code ↔
    Text.trim block = "<code>" ++ code ++ "</code>" := by
  rw [sampleIn?, Option.map_eq_some_iff]
  constructor
  · rintro ⟨inside, hinside, rfl⟩
    obtain ⟨rest, hrest, hinside⟩ := Option.bind_eq_some_iff.1 hinside
    rw [Text.after?_eq_some_iff, Text.before?_eq_some_iff.1 hinside] at hrest
    rw [← String.toList_inj, hrest]
    simp
  · intro h
    refine ⟨code.toList, Option.bind_eq_some_iff.2
      ⟨code.toList ++ "</code>".toList, ?_, ?_⟩, by simp⟩
    · rw [Text.after?_eq_some_iff, h]
      simp
    · exact Text.before?_eq_some_iff.2 rfl

theorem htmlBlock_cases (snippet : String → String) (block : String) :
    (∃ code, Text.trim block = "<code>" ++ code ++ "</code>" ∧
      htmlBlock snippet block = sample snippet code) ∨
    (∀ code, Text.trim block ≠ "<code>" ++ code ++ "</code>") ∧
      htmlBlock snippet block = .text block := by
  unfold htmlBlock
  split
  · rename_i code hcode
    exact .inl ⟨code, sampleIn?_eq_some_iff.1 hcode, rfl⟩
  · rename_i hnone
    refine .inr ⟨fun code hcode => ?_, rfl⟩
    rw [sampleIn?_eq_some_iff.2 hcode] at hnone
    cases hnone

/-- What is held of a block of this kind after an event, if `pick` tells what an event adds. -/
def heldAfter (tag : Tag) (pick : Event → Option String) (held : Option String) (e : Event) :
    Option String :=
  if e = .start tag then some "" else if e = .stop tag then none
  else held.map (· ++ (pick e).getD "")

/-- What is held of a block is what the events in it add, and nothing is held outside blocks. -/
def Holds (tag : Tag) (pick : Event → Option String) (done : List Event) (held : Option String) :
    Prop :=
  ∀ c, held = some c → ∃ inner, OpenIn tag done inner ∧ String.join (inner.filterMap pick) = c

theorem Holds.next (h : Holds tag pick done held) (e : Event) :
    Holds tag pick (done ++ [e]) (heldAfter tag pick held e) := by
  intro c hc
  unfold heldAfter at hc
  split at hc
  · rename_i he
    cases hc
    exact ⟨[], he ▸ OpenIn.start done tag, rfl⟩
  split at hc
  · cases hc
  · rename_i hstart hstop
    obtain ⟨c, rfl, rfl⟩ := Option.map_eq_some_iff.1 hc
    obtain ⟨inner, hinner, rfl⟩ := h c rfl
    refine ⟨inner ++ [e], hinner.next hstart hstop, ?_⟩
    rw [List.filterMap_append, String.join_append]
    cases hpick : pick e <;> simp [hpick]

/-- The events of a block add up to what is held at its end. -/
theorem foldl_heldAfter (hinner : Unmarked tag inner) (c : String) :
    inner.foldl (heldAfter tag pick) (some c) =
      some (c ++ String.join (inner.filterMap pick)) := by
  induction inner generalizing c with
  | nil => simp
  | cons e inner ih =>
    obtain ⟨hstart, hstop⟩ := hinner
    rw [List.mem_cons, not_or] at hstart hstop
    have hnext : heldAfter tag pick (some c) e = some (c ++ (pick e).getD "") := by
      rw [heldAfter, if_neg (Ne.symm hstart.1), if_neg (Ne.symm hstop.1)]
      rfl
    rw [List.foldl_cons, hnext, ih ⟨hstart.2, hstop.2⟩]
    cases hpick : pick e <;> simp [hpick, String.append_assoc]

namespace State

def added (snippet : String → String) (s : State) : Event → List Event
  | .start .codeBlock | .start .htmlBlock => []
  | .stop .codeBlock => (s.code.map (sample snippet)).toList
  | .stop .htmlBlock => (s.raw.map (htmlBlock snippet)).toList
  | .text t => if s.code.isSome then [] else [.text t]
  | .html l => if s.raw.isSome then [] else [.text l]
  | .inlineHtml tag => [if isCodeTag tag then .html tag else .text tag]
  | e => [e]

theorem step_out (s : State) (e : Event) :
    (s.step snippet e).out = s.out ++ s.added snippet e := by
  obtain ⟨code, raw, out⟩ := s
  cases e with
  | start tag => cases tag <;> simp [step, added, emit]
  | stop tag => cases tag <;> cases code <;> cases raw <;> simp [step, added, emit]
  | text t => cases code <;> simp [step, added, emit]
  | html l => cases raw <;> simp [step, added, emit]
  | _ => simp [step, added, emit]

theorem step_code (s : State) (e : Event) :
    (s.step snippet e).code = heldAfter .codeBlock text? s.code e := by
  obtain ⟨code, raw, out⟩ := s
  cases e with
  | start tag => cases tag <;> simp [step, heldAfter, text?, emit]
  | stop tag => cases tag <;> cases code <;> cases raw <;> simp [step, heldAfter, text?, emit]
  | text t => cases code <;> simp [step, heldAfter, text?, emit]
  | html l => cases raw <;> simp [step, heldAfter, text?, emit]
  | _ => simp [step, heldAfter, text?, emit]

theorem step_raw (s : State) (e : Event) :
    (s.step snippet e).raw = heldAfter .htmlBlock line? s.raw e := by
  obtain ⟨code, raw, out⟩ := s
  cases e with
  | start tag => cases tag <;> simp [step, heldAfter, line?, emit]
  | stop tag => cases tag <;> cases code <;> cases raw <;> simp [step, heldAfter, line?, emit]
  | text t => cases code <;> simp [step, heldAfter, line?, emit]
  | html l => cases raw <;> simp [step, heldAfter, line?, emit]
  | _ => simp [step, heldAfter, line?, emit]

theorem foldl_code (events : List Event) (s : State) :
    (events.foldl (step snippet) s).code = events.foldl (heldAfter .codeBlock text?) s.code :=
  (List.foldl_hom State.code fun s e => (step_code s e).symm).symm

theorem foldl_raw (events : List Event) (s : State) :
    (events.foldl (step snippet) s).raw = events.foldl (heldAfter .htmlBlock line?) s.raw :=
  (List.foldl_hom State.raw fun s e => (step_raw s e).symm).symm

theorem foldl_out (events : List Event) (s : State) :
    s.out ⊆ (events.foldl (step snippet) s).out := by
  induction events generalizing s with
  | nil => exact List.Subset.refl _
  | cons e events ih =>
    apply List.Subset.trans _ (ih (s.step snippet e))
    rw [step_out]
    exact List.subset_append_left ..

theorem inlineHtml_not_mem_added (s : State) (e : Event) (t : String) :
    .inlineHtml t ∉ s.added snippet e := by
  cases e with
  | start tag => cases tag <;> simp [added]
  | stop tag =>
    cases tag with
    | codeBlock => cases s.code <;> simp [added, sample]
    | htmlBlock =>
      cases hraw : s.raw with
      | none => simp [added, hraw]
      | some block =>
        rcases htmlBlock_cases snippet block with ⟨code, -, hblock⟩ | ⟨-, hblock⟩ <;>
          simp [added, hraw, hblock, sample]
    | _ => simp [added]
  | text t => cases s.code <;> simp [added]
  | html l => cases s.raw <;> simp [added]
  | inlineHtml tag =>
    simp only [added, List.mem_singleton]
    split <;> simp
  | _ => simp [added]

end State

structure Taken (snippet : String → String) (done : List Event) (s : State) : Prop where
  code : Holds .codeBlock text? done s.code
  raw : Holds .htmlBlock line? done s.raw
  no_inlineHtml : ∀ t, .inlineHtml t ∉ s.out
  kept : ∀ html, .html html ∈ s.out → IsKept snippet done html

namespace Taken

theorem kept_added (h : Taken snippet done s) {html : String}
    (hhtml : .html html ∈ s.added snippet e) : IsKept snippet (done ++ [e]) html := by
  cases e with
  | start tag => cases tag <;> simp [State.added] at hhtml
  | stop tag =>
    cases tag with
    | codeBlock =>
      cases hcode : s.code with
      | none => simp [State.added, hcode] at hhtml
      | some c =>
        obtain ⟨inner, hinner, hc⟩ := h.code c hcode
        refine .inr ⟨c, ?_, .inl ⟨inner, hinner.stop, hc⟩⟩
        simpa [State.added, hcode, sample] using hhtml
    | htmlBlock =>
      cases hraw : s.raw with
      | none => simp [State.added, hraw] at hhtml
      | some block =>
        obtain ⟨inner, hinner, rfl⟩ := h.raw block hraw
        rcases htmlBlock_cases snippet (htmlIn inner) with ⟨code, hcode, hblock⟩ | ⟨-, hblock⟩
        · refine .inr ⟨code, ?_, .inr ⟨inner, hinner.stop, hcode⟩⟩
          rw [htmlIn] at hblock
          simpa [State.added, hraw, hblock, sample] using hhtml
        · rw [htmlIn] at hblock
          simp [State.added, hraw, hblock] at hhtml
    | _ => simp [State.added] at hhtml
  | text t => cases hcode : s.code <;> simp [State.added, hcode] at hhtml
  | html l => cases hraw : s.raw <;> simp [State.added, hraw] at hhtml
  | inlineHtml tag =>
    simp only [State.added, List.mem_singleton] at hhtml
    split at hhtml
    · rename_i htag
      cases hhtml
      exact .inl ⟨htag, List.mem_append_right _ (.head _)⟩
    · cases hhtml
  | _ => simp [State.added] at hhtml

theorem next (h : Taken snippet done s) (e : Event) :
    Taken snippet (done ++ [e]) (s.step snippet e) where
  code := by
    rw [State.step_code]
    exact h.code.next e
  raw := by
    rw [State.step_raw]
    exact h.raw.next e
  no_inlineHtml t := by
    rw [State.step_out, List.mem_append, not_or]
    exact ⟨h.no_inlineHtml t, s.inlineHtml_not_mem_added e t⟩
  kept html hhtml := by
    rw [State.step_out, List.mem_append] at hhtml
    rcases hhtml with hhtml | hhtml
    · exact (h.kept html hhtml).append [e]
    · exact h.kept_added hhtml

theorem foldl (h : Taken snippet done s) (more : List Event) :
    Taken snippet (done ++ more) (more.foldl (State.step snippet) s) := by
  induction more generalizing done s with
  | nil => rwa [List.append_nil]
  | cons e more ih =>
    rw [List.foldl_cons, ← List.singleton_append, ← List.append_assoc]
    exact ih (h.next e)

theorem ofEvents (snippet : String → String) (given : List Event) :
    Taken snippet given (given.foldl (State.step snippet) {}) := by
  have hempty : Taken snippet [] {} :=
    ⟨fun _ => nofun, fun _ => nofun, fun _ => List.not_mem_nil, fun _ => nofun⟩
  exact hempty.foldl given

end Taken
end DocSite.DocComment
