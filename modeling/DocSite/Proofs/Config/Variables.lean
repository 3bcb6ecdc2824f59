import DocSite.Config.Document
import DocSite.Proofs.Config
import DocSite.Proofs.Config.References
import DocSite.Proofs.Value

namespace DocSite.Config

open Value (Step placeText Earlier)

variable {env : Environment} {field s name : String} {v : Value} {cause : ConfigError}
variable {place : List Step} {α β γ : Type}

/-- A reference is to a variable that is not set, without a text for this case. -/
def Part.Unset (env : Environment) (p : Part) (name : String) : Prop :=
  ∃ n, (p = .braced n none ∨ p = .bare n) ∧ name = String.ofList n ∧ Dict.find? name env = none

theorem Part.value_eq_error_iff {p : Part} : p.value env = .error name ↔ p.Unset env name := by
  have hvariable : ∀ n, (∃ m, n = m ∧ name = String.ofList m ∧ Dict.find? name env = none) ↔
      String.ofList n = name ∧ Dict.find? (String.ofList n) env = none := by
    intro n
    constructor
    · rintro ⟨m, rfl, rfl, hnone⟩
      exact ⟨rfl, hnone⟩
    · rintro ⟨rfl, hnone⟩
      exact ⟨n, rfl, rfl, hnone⟩
  cases p with
  | plain c => simp [value, Unset]
  | doubled => simp [value, Unset]
  | braced n default =>
    cases hfind : Dict.find? (String.ofList n) env <;> cases default <;>
      simp [value, Unset, hfind, hvariable]
  | bare n =>
    cases hfind : Dict.find? (String.ofList n) env <;> simp [value, Unset, hfind, hvariable]

theorem Part.exists_value_iff {p : Part} :
    (∃ out, p.value env = .ok out) ↔ ∀ name, ¬p.Unset env name := by
  simp only [← Part.value_eq_error_iff]
  cases p.value env <;> simp

/-- The first variable of a text that is not set. References count only in a text that has one in
braces. -/
def FirstUnset (env : Environment) (s name : String) : Prop :=
  ['$', '\x7b'] <:+: s.toList ∧ ∃ before p after,
    Reads (fun _ => True) s.toList (before ++ p :: after) ∧
      (∀ q ∈ before, ∀ other, ¬q.Unset env other) ∧ p.Unset env name

theorem expandText_eq_error_iff : expandText env field s = .error cause ↔
    ∃ name, FirstUnset env s name ∧ cause = .unset field name := by
  unfold FirstUnset
  by_cases hbrace : ['$', '\x7b'] <:+: s.toList
  · obtain ⟨parts, hparts⟩ := exists_reads (fun _ => True) s.toList
    have hexpand : expandText env field s = filled env field parts := by
      rw [expandText, if_pos (Text.hasWord_iff.2 hbrace), expandChars_eq_joined hparts]
      rfl
    rw [hexpand, filled_eq_error_iff]
    simp only [Part.value_eq_error_iff, Part.exists_value_iff]
    constructor
    · rintro ⟨before, p, after, name, rfl, hbefore, hp, rfl⟩
      exact ⟨name, ⟨hbrace, before, p, after, hparts, hbefore, hp⟩, rfl⟩
    · rintro ⟨name, ⟨-, before, p, after, hreads, hbefore, hp⟩, rfl⟩
      exact ⟨before, p, after, name, hparts.unique hreads, hbefore, hp, rfl⟩
  · have hleft : expandText env field s = .ok s := by
      rw [expandText, if_neg (mt Text.hasWord_iff.1 hbrace)]
    simp [hleft, hbrace]

/-- A text expands: it has no reference to a variable that is not set. -/
def Expands (env : Environment) (s : String) : Prop :=
  ∃ out, ∀ field, expandText env field s = .ok out

def expanded (env : Environment) (s : String) : String := (expandText env "" s).toOption.getD s

/-- What comes out of a text is the same for every field, up to the field in the failure. -/
theorem expandText_cases (env : Environment) (s : String) :
    (∀ field, expandText env field s = .ok (expanded env s)) ∨ ∃ name, FirstUnset env s name ∧
      ∀ field, expandText env field s = .error (.unset field name) := by
  by_cases hbrace : Text.hasWord ['$', '\x7b'] s.toList = true
  · cases hchars : expandChars env s.toList with
    | ok out =>
      exact .inl fun field => by simp [expandText, expanded, hbrace, hchars, Except.toOption]
    | error name =>
      have herror : ∀ field, expandText env field s = .error (.unset field name) := fun field => by
        rw [expandText, if_pos hbrace, hchars]
      obtain ⟨other, hother, hcause⟩ := expandText_eq_error_iff.1 (herror "")
      obtain ⟨-, rfl⟩ := ConfigError.unset.inj hcause
      exact .inr ⟨name, hother, herror⟩
  · exact .inl fun field => by simp [expandText, expanded, hbrace, Except.toOption]

theorem expands_iff (field : String) :
    (∃ out, expandText env field s = .ok out) ↔ Expands env s := by
  constructor
  · rintro ⟨out, hout⟩
    rcases expandText_cases env s with h | ⟨name, -, h⟩
    · exact ⟨_, h⟩
    · simp [h] at hout
  · rintro ⟨out, hout⟩
    exact ⟨out, hout field⟩

theorem expandText_of_expands (h : Expands env s) (field : String) :
    expandText env field s = .ok (expanded env s) := by
  obtain ⟨out, hout⟩ := h
  rcases expandText_cases env s with h | ⟨name, -, h⟩
  · exact h field
  · exact nomatch (hout field).symm.trans (h field)

theorem not_expands_iff : ¬Expands env s ↔ ∃ name, FirstUnset env s name := by
  rw [← expands_iff ""]
  cases h : expandText env "" s with
  | ok out =>
    have hnone : ∀ name, ¬FirstUnset env s name := fun name hname => by
      simp [expandText_eq_error_iff.2 ⟨name, hname, rfl⟩] at h
    simp [hnone]
  | error cause =>
    obtain ⟨name, hname, -⟩ := expandText_eq_error_iff.1 h
    exact ⟨fun _ => ⟨name, hname⟩, fun _ => nofun⟩

def failureAt (env : Environment) (field : String) (found : List Step × String) :
    Option ConfigError :=
  match expandText env (placeText field found.1) found.2 with
  | .ok _ => none
  | .error cause => some cause

def outcome (failure? : Option ConfigError) (result : α) : Except ConfigError α :=
  match failure? with
  | some cause => .error cause
  | none => .ok result

theorem outcome_map (failure? : Option ConfigError) (result : α) (f : α → β) :
    (outcome failure? result).map f = outcome failure? (f result) := by
  cases failure? <;> rfl

theorem outcome_eq_error_iff {failure? : Option ConfigError} {result : α} :
    outcome failure? result = .error cause ↔ failure? = some cause := by
  cases failure? <;> simp [outcome]

theorem outcome_eq_ok_iff {failure? : Option ConfigError} {result w : α} :
    outcome failure? result = .ok w ↔ failure? = none ∧ result = w := by
  cases failure? <;> simp [outcome]

theorem outcome_or (first? second? : Option ConfigError) (f : α → β → γ) (a : α) (b : β) :
    (do
      let a ← outcome first? a
      .ok (f a (← outcome second? b))) = outcome (first?.or second?) (f a b) := by
  cases first? <;> cases second? <;> rfl

/-- A value is expanded text by text. -/
def ExpandsByTexts (env : Environment) (v : Value) : Prop :=
  ∀ field, expandValue env field v =
    outcome (v.texts.findSome? (failureAt env field)) (v.mapTexts (expanded env))

theorem findSome?_behind (step : Step) (found : List (List Step × String)) :
    (found.map (Value.behind step)).findSome? (failureAt env field) =
      found.findSome? (failureAt env (field ++ step.text)) :=
  List.findSome?_map ..

theorem expandItems_eq {items : List Value} (h : ∀ v ∈ items, ExpandsByTexts env v) (i : Nat) :
    expandItems env field i items =
      outcome ((Value.itemTexts i items).findSome? (failureAt env field))
        (items.map (Value.mapTexts (expanded env))) := by
  induction items generalizing i with
  | nil => rfl
  | cons v items ih =>
    obtain ⟨hv, hitems⟩ := List.forall_mem_cons.1 h
    have hfield : s!"{field}[{i}]" = field ++ (Step.index i).text := by
      simp only [Step.text, toString, String.append_assoc]
    rw [expandItems, hfield, hv, ih hitems, outcome_or, Value.itemTexts, List.findSome?_append,
      findSome?_behind, List.map_cons]

theorem expandFields_eq {fields : List (String × Value)}
    (h : ∀ e ∈ fields, ExpandsByTexts env e.2) :
    expandFields env field fields =
      outcome ((Value.fieldTexts fields).findSome? (failureAt env field))
        (fields.map fun e => (e.1, e.2.mapTexts (expanded env))) := by
  induction fields with
  | nil => rfl
  | cons e fields ih =>
    obtain ⟨name, v⟩ := e
    obtain ⟨hv, hfields⟩ := List.forall_mem_cons.1 h
    have hfield : s!"{field}.{name}" = field ++ (Step.key name).text := by
      simp only [Step.text, toString, String.append_assoc]
    rw [expandFields, hfield, hv, ih hfields, outcome_or _ _ fun v rest => (name, v) :: rest,
      Value.fieldTexts, List.findSome?_append, findSome?_behind, List.map_cons]

theorem expandsByTexts (env : Environment) (v : Value) : ExpandsByTexts env v := by
  induction v using Value.induct with
  | null | bool | int | float =>
    intro field
    simp [expandValue, Value.texts, outcome, Value.mapTexts]
  | str s =>
    intro field
    rw [expandValue, Value.texts, Value.mapTexts, List.findSome?_singleton]
    rcases expandText_cases env s with h | ⟨name, -, h⟩ <;>
      simp [failureAt, h, outcome, Except.map, placeText]
  | list items ih =>
    intro field
    rw [expandValue, expandItems_eq ih, outcome_map, Value.texts, Value.mapTexts]
  | object fields ih =>
    intro field
    rw [expandValue, expandFields_eq ih, outcome_map, Value.texts, Value.mapTexts]

/-- The first text of a value that does not expand, with its place and its first variable that is
not set. -/
structure FirstFailure (env : Environment) (v : Value) (place : List Step) (s name : String) :
    Prop where
  held : v.Holds place s
  unset : FirstUnset env s name
  first : ∀ earlier t, v.Holds earlier t → Earlier earlier place → Expands env t

theorem failureAt_eq_none_iff {found : List Step × String} :
    failureAt env field found = none ↔ Expands env found.2 := by
  unfold failureAt Expands
  rcases expandText_cases env found.2 with h | ⟨name, -, h⟩ <;> simp [h]

theorem failureAt_eq_some_iff {found : List Step × String} :
    failureAt env field found = some cause ↔
      ∃ name, FirstUnset env found.2 name ∧ cause = .unset (placeText field found.1) name := by
  rw [← expandText_eq_error_iff, failureAt]
  split <;> simp_all

theorem findSome?_failureAt_eq_none_iff (field : String) :
    v.texts.findSome? (failureAt env field) = none ↔
      ∀ place s, v.Holds place s → Expands env s := by
  simp only [List.findSome?_eq_none_iff, failureAt_eq_none_iff, Prod.forall, Value.mem_texts_iff]

/-- A walk over a value with keys in order fails at the earliest place with a failure. -/
theorem findSome?_failureAt_eq_some_iff (hv : v.Ordered) :
    v.texts.findSome? (failureAt env field) = some cause ↔ ∃ place s name,
      FirstFailure env v place s name ∧ cause = .unset (placeText field place) name := by
  have horder := hv.pairwise_texts
  rw [List.findSome?_eq_some_iff]
  constructor
  · rintro ⟨before, ⟨place, s⟩, after, htexts, hfail, hbefore⟩
    obtain ⟨name, hname, rfl⟩ := failureAt_eq_some_iff.1 hfail
    have hheld : v.Holds place s := Value.mem_texts_iff.1 (by simp [htexts])
    refine ⟨place, s, name, ⟨hheld, hname, fun earlier t ht hearlier => ?_⟩, rfl⟩
    rw [htexts] at horder
    obtain ⟨-, hafter, -⟩ := List.pairwise_append.1 horder
    have hmem := Value.mem_texts_iff.2 ht
    rw [htexts, List.mem_append, List.mem_cons] at hmem
    rcases hmem with hmem | hsame | hmem
    · exact failureAt_eq_none_iff.1 (hbefore _ hmem)
    · obtain ⟨rfl, rfl⟩ := Prod.mk.inj hsame
      exact absurd hearlier (asymm hearlier)
    · exact absurd hearlier (asymm ((List.pairwise_cons.1 hafter).1 _ hmem))
  · rintro ⟨place, s, name, hfirst, rfl⟩
    obtain ⟨before, after, htexts⟩ := List.append_of_mem (Value.mem_texts_iff.2 hfirst.held)
    refine ⟨before, (place, s), after, htexts,
      failureAt_eq_some_iff.2 ⟨name, hfirst.unset, rfl⟩, fun found hfound => ?_⟩
    rw [htexts] at horder
    obtain ⟨-, -, hearlier⟩ := List.pairwise_append.1 horder
    have hheld : v.Holds found.1 found.2 := Value.mem_texts_iff.1 (by simp [htexts, hfound])
    exact failureAt_eq_none_iff.2
      (hfirst.first _ _ hheld (hearlier found hfound _ (.head _)))

mutual

/-- The keys of all tables are in order in the value that is read from a document. -/
theorem ordered_of_value? : ∀ {t : Toml} {v : Value}, value? t = some v → v.Ordered
  | .str _, _, h => by
    obtain rfl := Option.some.inj h
    exact .str
  | .int n, _, h => by
    rw [value?] at h
    split at h
    · obtain rfl := Option.some.inj h
      exact .int
    · contradiction
  | .float x, _, h => by
    obtain rfl := Option.some.inj h
    split
    · exact .float
    · exact .null
  | .bool _, _, h => by
    obtain rfl := Option.some.inj h
    exact .bool
  | .moment _, _, h => by
    obtain rfl := Option.some.inj h
    exact .object (List.pairwise_singleton _ _) (by simp [Value.Ordered.str])
  | .array items, _, h => by
    obtain ⟨values, hvalues, rfl⟩ := Option.map_eq_some_iff.1 h
    exact .list (ordered_of_values? hvalues)
  | .table fields, _, h => by
    obtain ⟨values, hvalues, rfl⟩ := Option.map_eq_some_iff.1 h
    exact Value.ordered_ofList (ordered_of_fieldValues? hvalues)

theorem ordered_of_values? : ∀ {items : List Toml} {values : List Value},
    values? items = some values → ∀ v ∈ values, v.Ordered
  | [], _, h => by
    obtain rfl := Option.some.inj h
    simp
  | t :: items, _, h => by
    simp only [values?, Option.bind_eq_bind, Option.bind_eq_some_iff, Option.some.injEq] at h
    obtain ⟨v, hv, values, hvalues, rfl⟩ := h
    exact List.forall_mem_cons.2 ⟨ordered_of_value? hv, ordered_of_values? hvalues⟩

theorem ordered_of_fieldValues? : ∀ {fields : List (String × Toml)}
    {values : List (String × Value)}, fieldValues? fields = some values →
      ∀ e ∈ values, e.2.Ordered
  | [], _, h => by
    obtain rfl := Option.some.inj h
    simp
  | (name, t) :: fields, _, h => by
    simp only [fieldValues?, Option.bind_eq_bind, Option.bind_eq_some_iff, Option.some.injEq] at h
    obtain ⟨v, hv, values, hvalues, rfl⟩ := h
    exact List.forall_mem_cons.2 ⟨ordered_of_value? hv, ordered_of_fieldValues? hvalues⟩

end

/-- The variables of a document stand in the order of their names, and so do all keys in them. -/
theorem ordered_vars {text : String} {d : Document} (h : document? text = some d) :
    (Value.object d.vars).Ordered := by
  simp only [document?, Option.bind_eq_bind, Option.bind_eq_some_iff, Option.some.injEq] at h
  obtain ⟨fields, -, -, -, resources, -, filenames, -, templates, -, vars, hvars, rfl⟩ := h
  cases hlookup : fields.lookup "variables" with
  | none =>
    rw [hlookup] at hvars
    obtain rfl := Option.some.inj hvars
    exact .object .nil nofun
  | some t =>
    rw [hlookup] at hvars
    cases t with
    | table entries =>
      obtain ⟨values, hvalues, rfl⟩ := Option.map_eq_some_iff.1 hvars
      exact Value.ordered_ofList (ordered_of_fieldValues? hvalues)
    | _ => simp [field?, vars?] at hvars

/-- The failure of a document: in its documentation address, or else in its variables. -/
def Document.Fails (env : Environment) (d : Document) (field name : String) : Prop :=
  field = "settings.external_docs_url" ∧ FirstUnset env d.docsUrl name ∨
    Expands env d.docsUrl ∧ ∃ place s, FirstFailure env (.object d.vars) place s name ∧
      field = placeText "variables" place

theorem Document.expand_eq_error_iff {d : Document} (hd : (Value.object d.vars).Ordered) :
    d.expand env = .error cause ↔
      ∃ field name, d.Fails env field name ∧ cause = .unset field name := by
  have hvars : expandFields env "variables" d.vars = .error cause ↔ ∃ place s name,
      FirstFailure env (.object d.vars) place s name ∧
        cause = .unset (placeText "variables" place) name := by
    rw [← findSome?_failureAt_eq_some_iff hd, expandFields_eq fun e _ => expandsByTexts env e.2,
      outcome_eq_error_iff, Value.texts]
  have hurl : (∃ out, expandText env "settings.external_docs_url" d.docsUrl = .ok out) ↔
      Expands env d.docsUrl := expands_iff _
  unfold Document.expand Document.Fails
  simp only [bind_eq_error, reduceCtorEq, and_false, exists_false, or_false,
    expandText_eq_error_iff, hvars]
  constructor
  · rintro (⟨name, hname, rfl⟩ | ⟨out, hout, place, s, name, hfirst, rfl⟩)
    · exact ⟨_, name, .inl ⟨rfl, hname⟩, rfl⟩
    · exact ⟨_, name, .inr ⟨hurl.1 ⟨out, hout⟩, place, s, hfirst, rfl⟩, rfl⟩
  · rintro ⟨field, name, ⟨rfl, hname⟩ | ⟨hexpands, place, s, hfirst, rfl⟩, rfl⟩
    · exact .inl ⟨name, hname, rfl⟩
    · obtain ⟨out, hout⟩ := hurl.2 hexpands
      exact .inr ⟨out, hout, place, s, name, hfirst, rfl⟩

theorem Document.exists_fails_iff {d : Document} (hd : (Value.object d.vars).Ordered) :
    (∃ field name, d.Fails env field name) ↔ ¬Expands env d.docsUrl ∨
      ∃ place s, (Value.object d.vars).Holds place s ∧ ¬Expands env s := by
  unfold Document.Fails
  constructor
  · rintro ⟨field, name, ⟨-, hname⟩ | ⟨-, place, s, hfirst, -⟩⟩
    · exact .inl (not_expands_iff.2 ⟨name, hname⟩)
    · exact .inr ⟨place, s, hfirst.held, not_expands_iff.2 ⟨name, hfirst.unset⟩⟩
  · intro h
    by_cases hexpands : Expands env d.docsUrl
    · obtain ⟨place, s, hheld, hs⟩ := h.resolve_left (not_not_intro hexpands)
      have hfail : (Value.object d.vars).texts.findSome? (failureAt env "variables") ≠ none :=
        fun hnone => hs ((findSome?_failureAt_eq_none_iff _).1 hnone place s hheld)
      obtain ⟨cause, hcause⟩ := Option.ne_none_iff_exists'.1 hfail
      obtain ⟨place, s, name, hfirst, -⟩ := (findSome?_failureAt_eq_some_iff hd).1 hcause
      exact ⟨_, name, .inr ⟨hexpands, place, s, hfirst, rfl⟩⟩
    · obtain ⟨name, hname⟩ := not_expands_iff.1 hexpands
      exact ⟨_, name, .inl ⟨rfl, hname⟩⟩

theorem validate_ne_unset (c : Config) (field name : String) :
    c.validate ≠ .error (.unset field name) := by
  intro h
  rcases bind_eq_error.1 h with hnames | ⟨-, -, hresources⟩
  · obtain ⟨⟨kind, pattern⟩, -, hcheck⟩ := exists_of_forM_eq_error hnames
    dsimp only at hcheck
    split at hcheck <;> simp at hcheck
  · obtain ⟨r, -, hcheck⟩ := exists_of_forM_eq_error hresources
    split at hcheck <;> simp at hcheck

theorem ofToml_eq_unset_iff {text : String} {base : Path} :
    ofToml env text base = .error (.unset field name) ↔
      ∃ d, document? text = some d ∧ d.Fails env field name := by
  rw [ofToml_eq_error_iff]
  simp only [reduceCtorEq, and_false, false_or, validate_ne_unset, exists_false, or_false]
  refine exists_congr fun d => and_congr_right fun hd => ?_
  simp [Document.expand_eq_error_iff (ordered_vars hd)]

/-- A value is expanded just if all texts in it are. Then these are replaced, each by what comes out
of it, and nothing else changes; otherwise the first in the order of places is reported, by its
place and its first variable that is not set. A configuration with a variable that is not set
reports the documentation address, or else the first text in its variables. -/
theorem expandValue_by_texts (env : Environment) :
    (∀ field v, (∃ w, expandValue env field v = .ok w) ↔
      ∀ place s, v.Holds place s → Expands env s) ∧
    (∀ field v w, expandValue env field v = .ok w → ∃ f, w = v.mapTexts f ∧
      ∀ place s, v.Holds place s → ∀ field, expandText env field s = .ok (f s)) ∧
    (∀ field v cause, v.Ordered → (expandValue env field v = .error cause ↔ ∃ place s name,
      FirstFailure env v place s name ∧ cause = .unset (placeText field place) name)) ∧
    ∀ text base,
      ((∃ field name, ofToml env text base = .error (.unset field name)) ↔
        ∃ d, document? text = some d ∧ (¬Expands env d.docsUrl ∨
          ∃ place s, (Value.object d.vars).Holds place s ∧ ¬Expands env s)) ∧
      ∀ field name, ofToml env text base = .error (.unset field name) ↔
        ∃ d, document? text = some d ∧ d.Fails env field name := by
  have hvalue : ∀ field v, expandValue env field v = outcome
      (v.texts.findSome? (failureAt env field)) (v.mapTexts (expanded env)) :=
    fun field v => expandsByTexts env v field
  refine ⟨fun field v => ?_, fun field v w h => ?_, fun field v cause hv => ?_,
    fun text base => ⟨?_, fun field name => ofToml_eq_unset_iff⟩⟩
  · simp only [hvalue, outcome_eq_ok_iff, exists_and_left, exists_eq', and_true]
    exact findSome?_failureAt_eq_none_iff field
  · rw [hvalue, outcome_eq_ok_iff, findSome?_failureAt_eq_none_iff] at h
    obtain ⟨hexpand, rfl⟩ := h
    exact ⟨expanded env, rfl, fun place s hheld => expandText_of_expands (hexpand place s hheld)⟩
  · rw [hvalue, outcome_eq_error_iff, findSome?_failureAt_eq_some_iff hv]
  · simp only [ofToml_eq_unset_iff]
    constructor
    · rintro ⟨field, name, d, hd, hfails⟩
      exact ⟨d, hd, (Document.exists_fails_iff (ordered_vars hd)).1 ⟨field, name, hfails⟩⟩
    · rintro ⟨d, hd, hfails⟩
      obtain ⟨field, name, hfails⟩ := (Document.exists_fails_iff (ordered_vars hd)).2 hfails
      exact ⟨field, name, d, hd, hfails⟩

/-- A variable is not set in the second item of a list, and in a document whose variables are not
written in the order of their names. -/
theorem expandValue_by_texts_nested :
    let env : Environment := [("A", "v2")]
    let v : Value := .object
      [("count", .int 3), ("links", .list [.str "$\x7bA\x7d", .str "$\x7bB\x7d and $\x7bC\x7d"])]
    let text := "[variables]\nb = [\"$\x7bC\x7d\"]\na = \"$\x7bB\x7d\""
    v.Ordered ∧ ¬(∀ place s, v.Holds place s → Expands env s) ∧
      (∃ place s, FirstFailure env v place s "B" ∧
        placeText "variables.meta" place = "variables.meta.links[1]") ∧
      expandValue env "variables.meta" v =
        .error (.unset "variables.meta.links[1]" "B") ∧
      ∃ d, document? text = some d ∧ d.Fails env "variables.a" "B" := by
  intro env v text
  have hlinks : Value.Ordered (.list [.str "$\x7bA\x7d", .str "$\x7bB\x7d and $\x7bC\x7d"]) :=
    .list (List.forall_mem_cons.2 ⟨.str, List.forall_mem_singleton.2 .str⟩)
  have hv : v.Ordered := .object (List.pairwise_pair.2 (by decide))
    (List.forall_mem_cons.2 ⟨.int, List.forall_mem_singleton.2 hlinks⟩)
  have hfail : expandValue env "variables.meta" v = .error (.unset "variables.meta.links[1]" "B") :=
    eq_error_of_beq (by decide +kernel)
  have hdocument : ofToml env text ⟨""⟩ = .error (.unset "variables.a" "B") :=
    eq_error_of_beq (by decide +kernel)
  obtain ⟨hsuccess, -, hfirst, hconfig⟩ := expandValue_by_texts env
  obtain ⟨place, s, name, hfirst, hcause⟩ := (hfirst _ v _ hv).1 hfail
  obtain ⟨hplace, rfl⟩ := ConfigError.unset.inj hcause
  refine ⟨hv, fun hall => ?_, ⟨place, s, hfirst, hplace.symm⟩, hfail,
    ((hconfig text ⟨""⟩).2 _ _).1 hdocument⟩
  obtain ⟨w, hw⟩ := (hsuccess "variables.meta" v).2 hall
  simp [hfail] at hw

end DocSite.Config
