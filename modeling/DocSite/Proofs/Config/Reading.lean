import DocSite.Config.Expand
import DocSite.Proofs.Text.Cut

namespace DocSite.Config

inductive Part where
  /-- A character that stands for itself. -/
  | plain (c : Char)
  /-- A name in braces, with the text for the case that the variable is not set. -/
  | braced (name : List Char) (default : Option (List Char))
  /-- Two dollar signs. -/
  | doubled
  /-- A dollar sign before a name without braces. -/
  | bare (name : List Char)

namespace Part

def IsBraced : Part → Prop
  | braced .. => True
  | _ => False

/-- Dollar signs outside braces that are not taken as they stand. -/
def IsStray : Part → Prop
  | doubled | bare _ => True
  | _ => False

end Part

/-- The text between two braces is a name, or a name and a text after the first `:-`. -/
def Divides (inside name : List Char) : Option (List Char) → Prop
  | some text => name ≠ [] ∧ Text.CutAtFirst [':', '-'] inside name text
  | none => name = inside ∧
      ∀ before after, Text.CutAtFirst [':', '-'] inside before after → before = []

/-- A text begins with a reference, which a rest follows. -/
inductive Begins : Part → List Char → List Char → Prop
  | braced {inside name : List Char} {default : Option (List Char)} {rest : List Char} :
      '\x7d' ∉ inside → Divides inside name default →
      Begins (.braced name default) ('$' :: '\x7b' :: (inside ++ '\x7d' :: rest)) rest
  | doubled {rest : List Char} : Begins .doubled ('$' :: '$' :: rest) rest
  | bare {name rest : List Char} : name ≠ [] → (∀ c ∈ name, isVariableChar c = true) →
      (∀ c ∈ rest.head?, isVariableChar c = false) →
      Begins (.bare name) ('$' :: (name ++ rest)) rest

/-- How a text is read if references of certain sorts count: from left to right, with every other
character as it is. -/
inductive Reads (counts : Part → Prop) : List Char → List Part → Prop
  | nil : Reads counts [] []
  | reference {p : Part} {s rest : List Char} {parts : List Part} :
      counts p → Begins p s rest → Reads counts rest parts → Reads counts s (p :: parts)
  | plain {c : Char} {s : List Char} {parts : List Part} :
      (∀ p rest, counts p → ¬Begins p (c :: s) rest) → Reads counts s parts →
      Reads counts (c :: s) (.plain c :: parts)

variable {c : Char} {p p' : Part} {s rest rest' inside name body : List Char}
variable {default : Option (List Char)}

theorem isVariableChar_brace : isVariableChar '\x7b' = false := by decide

theorem isVariableChar_dollar : isVariableChar '$' = false := by decide

theorem exists_divides (inside : List Char) : ∃ name default, Divides inside name default := by
  cases hcut : Text.splitAt? [':', '-'] inside with
  | none =>
    refine ⟨inside, none, rfl, fun before after h => ?_⟩
    simp [Text.splitAt?_eq_some_iff.2 h] at hcut
  | some cut =>
    obtain ⟨before, after⟩ := cut
    have hcut := Text.splitAt?_eq_some_iff.1 hcut
    by_cases hbefore : before = []
    · exact ⟨inside, none, rfl, fun b a h => (h.unique hcut).1.trans hbefore⟩
    · exact ⟨before, some after, hbefore, hcut⟩

theorem Divides.unique {name' : List Char} {default' : Option (List Char)}
    (h : Divides inside name default) (h' : Divides inside name' default') :
    name = name' ∧ default = default' := by
  cases default with
  | none =>
    cases default' with
    | none => exact ⟨h.1.trans h'.1.symm, rfl⟩
    | some text => exact absurd (h.2 _ _ h'.2) h'.1
  | some text =>
    cases default' with
    | none => exact absurd (h'.2 _ _ h.2) h.1
    | some text' =>
      obtain ⟨rfl, rfl⟩ := h.2.unique h'.2
      exact ⟨rfl, rfl⟩

theorem Begins.exists_cons (h : Begins p s rest) : ∃ c tail, s = '$' :: c :: tail := by
  cases h with
  | braced => exact ⟨_, _, rfl⟩
  | doubled => exact ⟨_, _, rfl⟩
  | bare hne =>
    obtain ⟨c, name, rfl⟩ := List.exists_cons_of_ne_nil hne
    exact ⟨c, _, rfl⟩

theorem begins_brace_iff : Begins p ('$' :: '\x7b' :: body) rest ↔ ∃ inside name default,
    body = inside ++ '\x7d' :: rest ∧ '\x7d' ∉ inside ∧ Divides inside name default ∧
      p = .braced name default := by
  constructor
  · intro h
    generalize hs : '$' :: '\x7b' :: body = s at h
    cases h with
    | braced hinside hdivides =>
      simp only [List.cons.injEq, true_and] at hs
      exact ⟨_, _, _, hs, hinside, hdivides, rfl⟩
    | doubled => simp at hs
    | bare hne hname =>
      obtain ⟨c, name, rfl⟩ := List.exists_cons_of_ne_nil hne
      simp only [List.cons_append, List.cons.injEq, true_and] at hs
      have hc := hname c (.head _)
      rw [← hs.1, isVariableChar_brace] at hc
      contradiction
  · rintro ⟨inside, name, default, rfl, hinside, hdivides, rfl⟩
    exact .braced hinside hdivides

theorem begins_dollar_iff : Begins p ('$' :: '$' :: s) rest ↔ p = .doubled ∧ rest = s := by
  constructor
  · intro h
    generalize hs : '$' :: '$' :: s = t at h
    cases h with
    | braced => simp at hs
    | doubled =>
      simp only [List.cons.injEq, true_and] at hs
      exact ⟨rfl, hs.symm⟩
    | bare hne hname =>
      obtain ⟨c, name, rfl⟩ := List.exists_cons_of_ne_nil hne
      simp only [List.cons_append, List.cons.injEq, true_and] at hs
      have hc := hname c (.head _)
      rw [← hs.1, isVariableChar_dollar] at hc
      contradiction
  · rintro ⟨rfl, rfl⟩
    exact .doubled

theorem begins_other_iff (hbrace : c ≠ '\x7b') (hdollar : c ≠ '$') :
    Begins p ('$' :: c :: s) rest ↔ isVariableChar c = true ∧
      p = .bare (c :: s.takeWhile isVariableChar) ∧ rest = s.dropWhile isVariableChar := by
  constructor
  · intro h
    generalize hs : '$' :: c :: s = t at h
    cases h with
    | braced => simp [hbrace] at hs
    | doubled => simp [hdollar] at hs
    | @bare name rest hne hname hrest =>
      obtain ⟨d, name, rfl⟩ := List.exists_cons_of_ne_nil hne
      simp only [List.cons_append, List.cons.injEq, true_and] at hs
      obtain ⟨rfl, rfl⟩ := hs
      obtain ⟨hc, hname⟩ := List.forall_mem_cons.1 hname
      -- the rest begins with no variable character, so the run of these ends before it
      have hstop : rest.takeWhile isVariableChar = [] ∧ rest.dropWhile isVariableChar = rest := by
        cases rest with
        | nil => exact ⟨rfl, rfl⟩
        | cons d rest => simp [hrest d rfl]
      rw [List.takeWhile_append_of_pos hname, List.dropWhile_append_of_pos hname, hstop.1, hstop.2,
        List.append_nil]
      exact ⟨hc, rfl, rfl⟩
  · rintro ⟨hc, rfl, rfl⟩
    have hbare : Begins (.bare (c :: s.takeWhile isVariableChar))
        ('$' :: ((c :: s.takeWhile isVariableChar) ++ s.dropWhile isVariableChar))
        (s.dropWhile isVariableChar) := by
      refine .bare (by simp) (List.forall_mem_cons.2 ⟨hc, fun d hd => ?_⟩) fun d hd => ?_
      · exact List.all_eq_true.1 List.all_takeWhile d hd
      · have hhead := List.head?_dropWhile_not isVariableChar s
        rw [Option.mem_def.1 hd] at hhead
        simpa using hhead
    rwa [List.cons_append, List.takeWhile_append_dropWhile] at hbare

theorem Begins.unique (h : Begins p s rest) (h' : Begins p' s rest') : p = p' ∧ rest = rest' := by
  obtain ⟨c, tail, rfl⟩ := h.exists_cons
  by_cases hbrace : c = '\x7b'
  · subst hbrace
    obtain ⟨inside, name, default, rfl, hin, hdivides, rfl⟩ := begins_brace_iff.1 h
    obtain ⟨inside', name', default', heq, hin', hdivides', rfl⟩ := begins_brace_iff.1 h'
    have hsplit := (Text.splitFirst_eq_some_iff.2 ⟨rfl, hin⟩).symm.trans
      (Text.splitFirst_eq_some_iff.2 ⟨heq, hin'⟩)
    obtain ⟨rfl, rfl⟩ := Prod.mk.inj (Option.some.inj hsplit)
    obtain ⟨rfl, rfl⟩ := hdivides.unique hdivides'
    exact ⟨rfl, rfl⟩
  · by_cases hdollar : c = '$'
    · subst hdollar
      obtain ⟨rfl, rfl⟩ := begins_dollar_iff.1 h
      obtain ⟨rfl, rfl⟩ := begins_dollar_iff.1 h'
      exact ⟨rfl, rfl⟩
    · obtain ⟨-, rfl, rfl⟩ := (begins_other_iff hbrace hdollar).1 h
      obtain ⟨-, rfl, rfl⟩ := (begins_other_iff hbrace hdollar).1 h'
      exact ⟨rfl, rfl⟩

theorem Begins.length_lt (h : Begins p s rest) : rest.length < s.length := by
  cases h with
  | braced =>
    simp only [List.length_cons, List.length_append]
    omega
  | doubled =>
    simp only [List.length_cons]
    omega
  | bare =>
    simp only [List.length_cons, List.length_append]
    omega

section Readings

variable {counts : Part → Prop} {parts parts' : List Part}

theorem Reads.exists_of_begins (h : Reads counts s parts) (hp : counts p)
    (hbegins : Begins p s rest) : ∃ tail, parts = p :: tail ∧ Reads counts rest tail := by
  cases h with
  | nil => simpa using hbegins.exists_cons
  | reference _ hbegins' hrest =>
    obtain ⟨rfl, rfl⟩ := hbegins.unique hbegins'
    exact ⟨_, rfl, hrest⟩
  | plain hno => exact absurd hbegins (hno _ _ hp)

theorem Reads.exists_of_not_begins (h : Reads counts (c :: s) parts)
    (hno : ∀ p rest, counts p → ¬Begins p (c :: s) rest) :
    ∃ tail, parts = .plain c :: tail ∧ Reads counts s tail := by
  cases h with
  | reference hp hbegins => exact absurd hbegins (hno _ _ hp)
  | plain _ hrest => exact ⟨_, rfl, hrest⟩

theorem Reads.unique (h : Reads counts s parts) (h' : Reads counts s parts') : parts = parts' := by
  induction h generalizing parts' with
  | nil =>
    cases h' with
    | nil => rfl
    | reference _ hbegins => simpa using hbegins.exists_cons
  | reference hp hbegins _ ih =>
    obtain ⟨tail, rfl, htail⟩ := h'.exists_of_begins hp hbegins
    rw [ih htail]
  | plain hno _ ih =>
    obtain ⟨tail, rfl, htail⟩ := h'.exists_of_not_begins hno
    rw [ih htail]

theorem exists_reads (counts : Part → Prop) (s : List Char) : ∃ parts, Reads counts s parts := by
  induction hn : s.length using Nat.strongRecOn generalizing s with
  | ind n ih =>
    by_cases hbegins : ∃ p rest, counts p ∧ Begins p s rest
    · obtain ⟨p, rest, hp, hbegins⟩ := hbegins
      obtain ⟨parts, hparts⟩ := ih _ (hn ▸ hbegins.length_lt) rest rfl
      exact ⟨_, .reference hp hbegins hparts⟩
    · cases s with
      | nil => exact ⟨_, .nil⟩
      | cons c s =>
        obtain ⟨parts, hparts⟩ := ih _ (by simp [← hn]) s rfl
        exact ⟨_, .plain (fun p rest hp h => hbegins ⟨p, rest, hp, h⟩) hparts⟩

theorem Reads.counts_or_plain (h : Reads counts s parts) (hp : p ∈ parts) :
    counts p ∨ ∃ c, p = .plain c := by
  induction h with
  | nil => simp at hp
  | reference hcounts _ _ ih =>
    rcases List.mem_cons.1 hp with rfl | hp
    · exact .inl hcounts
    · exact ih hp
  | plain _ _ ih =>
    rcases List.mem_cons.1 hp with rfl | hp
    · exact .inr ⟨_, rfl⟩
    · exact ih hp

theorem Reads.plain_append {w : List Char} (hw : '$' ∉ w) (h : Reads counts s parts) :
    Reads counts (w ++ s) (w.map .plain ++ parts) := by
  induction w with
  | nil => exact h
  | cons c w ih =>
    obtain ⟨hc, hw⟩ := List.ne_and_not_mem_of_not_mem_cons hw
    refine .plain (fun p rest _ hbegins => ?_) (ih hw)
    obtain ⟨d, tail, heq⟩ := hbegins.exists_cons
    exact hc (List.cons.inj heq).1.symm

end Readings

end DocSite.Config
