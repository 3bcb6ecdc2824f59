import DocSite.Proofs.Config.Reading
import DocSite.Proofs.Dict
import DocSite.Proofs.Except

namespace DocSite.Config

variable {env : Environment} {field : String} {c : Char} {p : Part}
variable {s rest inside name : List Char} {default : Option (List Char)}

namespace Part

def value (env : Environment) : Part → Except String (List Char)
  | plain c => .ok [c]
  | braced name default =>
    match Dict.find? (String.ofList name) env, default with
    | some v, _ => .ok v.toList
    | none, some text => .ok text
    | none, none => .error (String.ofList name)
  | doubled => .ok ['$']
  | bare name =>
    match Dict.find? (String.ofList name) env with
    | some v => .ok v.toList
    | none => .error (String.ofList name)

def name? : Part → Option (List Char)
  | braced name _ | bare name => some name
  | plain _ | doubled => none

end Part

theorem braced_eq_value (h : Divides inside name default) :
    braced env inside = (Part.braced name default).value env := by
  unfold braced
  cases default with
  | none =>
    obtain ⟨rfl, hno⟩ := h
    have hvalue : lookUp env name = (Part.braced name none).value env := by
      simp only [lookUp, Part.value]
      cases Dict.find? (String.ofList name) env <;> rfl
    cases hcut : Text.splitAt? [':', '-'] name with
    | none => exact hvalue
    | some cut =>
      obtain ⟨before, after⟩ := cut
      obtain rfl := hno _ _ (Text.splitAt?_eq_some_iff.1 hcut)
      exact hvalue
  | some text =>
    obtain ⟨hne, hcut⟩ := h
    obtain ⟨c, name, rfl⟩ := List.exists_cons_of_ne_nil hne
    rw [Text.splitAt?_eq_some_iff.2 hcut]
    simp only [lookUp, Part.value]
    cases Dict.find? (String.ofList (c :: name)) env <;> rfl

theorem expandChars_of_begins (h : Begins p s rest) : expandChars env s =
    (p.value env).bind fun value => (expandChars env rest).map (value ++ ·) := by
  have hbind : ∀ x : Except String (List Char),
      (x >>= fun value => do .ok (value ++ (← expandChars env rest))) =
        x.bind fun value => (expandChars env rest).map (value ++ ·) := by
    intro x
    cases x with
    | error name => rfl
    | ok value => cases expandChars env rest <;> rfl
  obtain ⟨c, tail, rfl⟩ := h.exists_cons
  by_cases hbrace : c = '\x7b'
  · subst hbrace
    obtain ⟨inside, name, default, rfl, hin, hdivides, rfl⟩ := begins_brace_iff.1 h
    have hsplit : Text.splitFirst (· == '\x7d') (inside ++ '\x7d' :: rest) = some (inside, rest) :=
      Text.splitFirst_eq_some_iff.2 ⟨rfl, hin⟩
    rw [expandChars]
    split
    · rename_i inside' after hsome
      obtain ⟨rfl, rfl⟩ := Prod.mk.inj (Option.some.inj (hsplit.symm.trans hsome))
      rw [braced_eq_value hdivides]
      exact hbind _
    · rename_i hnone
      simp [hsplit] at hnone
  · by_cases hdollar : c = '$'
    · subst hdollar
      obtain ⟨rfl, rfl⟩ := begins_dollar_iff.1 h
      rw [expandChars]
      rfl
    · obtain ⟨hc, rfl, rfl⟩ := (begins_other_iff hbrace hdollar).1 h
      rw [expandChars, if_pos hc]
      · exact hbind _
      · exact hbrace
      · exact hdollar

theorem expandChars_cons_of_ne (hc : c ≠ '$') :
    expandChars env (c :: s) = (expandChars env s).map (c :: ·) := by
  rw [expandChars]
  exact hc

theorem expandChars_of_not_begins (h : ∀ p rest, ¬Begins p (c :: s) rest) :
    expandChars env (c :: s) = (expandChars env s).map (c :: ·) := by
  by_cases hc : c = '$'
  · subst hc
    cases s with
    | nil => simp [expandChars, Except.map]
    | cons d s =>
      by_cases hbrace : d = '\x7b'
      · subst hbrace
        cases hsplit : Text.splitFirst (· == '\x7d') s with
        | some cut =>
          obtain ⟨heq, hin⟩ := Text.splitFirst_eq_some_iff.1 hsplit
          obtain ⟨name, default, hdivides⟩ := exists_divides cut.1
          exact absurd (begins_brace_iff.2 ⟨_, _, _, heq, hin, hdivides, rfl⟩) (h _ _)
        | none =>
          have hbody : expandChars env ('\x7b' :: s) = (expandChars env s).map ('\x7b' :: ·) :=
            expandChars_cons_of_ne (by decide)
          rw [hbody, expandChars]
          split
          · rename_i hsome
            simp [hsplit] at hsome
          · cases expandChars env s <;> rfl
      · by_cases hdollar : d = '$'
        · subst hdollar
          exact absurd .doubled (h _ _)
        · have hno : isVariableChar d = false :=
            Bool.eq_false_iff.2 fun hd =>
              h _ _ ((begins_other_iff hbrace hdollar).2 ⟨hd, rfl, rfl⟩)
          rw [expandChars, if_neg (by simp [hno])]
          · exact hbrace
          · exact hdollar
  · exact expandChars_cons_of_ne hc

/-- The values of the parts in order, or the cause of the first that has none. -/
def joined (env : Environment) (parts : List Part) : Except String (List Char) :=
  (parts.mapM (Part.value env)).map List.flatten

theorem joined_cons (env : Environment) (p : Part) (parts : List Part) :
    joined env (p :: parts) =
      (p.value env).bind fun value => (joined env parts).map (value ++ ·) := by
  rw [joined, List.mapM_cons, joined]
  cases p.value env with
  | error name => rfl
  | ok value => cases parts.mapM (Part.value env) <;> rfl

/-- A text is expanded as it is read with references of all sorts. -/
theorem expandChars_eq_joined {parts : List Part} (h : Reads (fun _ => True) s parts) :
    expandChars env s = joined env parts := by
  induction h with
  | nil => simp [expandChars, joined, pure, Except.pure, Except.map]
  | reference _ hbegins _ ih => rw [expandChars_of_begins hbegins, ih, joined_cons]
  | plain hno _ ih =>
    rw [expandChars_of_not_begins fun p rest => hno p rest trivial, ih, joined_cons]
    cases joined env _ <;> rfl

/-- The text with its parts replaced, or the first variable that is not set. -/
def filled (env : Environment) (field : String) (parts : List Part) :
    Except ConfigError String :=
  match joined env parts with
  | .ok out => .ok (String.ofList out)
  | .error name => .error (.unset field name)

theorem filled_eq_error_iff {parts : List Part} {cause : ConfigError} :
    filled env field parts = .error cause ↔ ∃ before p after name,
      parts = before ++ p :: after ∧ (∀ q ∈ before, ∃ v, q.value env = .ok v) ∧
        p.value env = .error name ∧ cause = .unset field name := by
  unfold filled joined
  cases hvalues : parts.mapM (Part.value env) with
  | ok values =>
    refine ⟨fun h => by simp [Except.map] at h, ?_⟩
    rintro ⟨before, p, after, name, hparts, hbefore, hp, -⟩
    have herror := mapM_eq_error_iff.2 ⟨before, p, after, hparts, hbefore, hp⟩
    simp [herror] at hvalues
  | error name =>
    obtain ⟨before, p, after, hparts, hbefore, hp⟩ := mapM_eq_error_iff.1 hvalues
    constructor
    · intro h
      exact ⟨before, p, after, name, hparts, hbefore, hp, (Except.error.inj h).symm⟩
    · rintro ⟨before', p', after', name', hparts', hbefore', hp', rfl⟩
      have herror := mapM_eq_error_iff.2 ⟨before', p', after', hparts', hbefore', hp'⟩
      rw [hvalues] at herror
      rw [Except.error.inj herror]
      rfl

theorem exists_filled_iff {parts : List Part} :
    (∃ out, filled env field parts = .ok out) ↔ ∀ p ∈ parts, ∃ v, p.value env = .ok v := by
  constructor
  · rintro ⟨out, hout⟩ p hp
    cases hvalue : p.value env with
    | ok v => exact ⟨v, rfl⟩
    | error name =>
      cases hvalues : parts.mapM (Part.value env) with
      | ok values =>
        have hmem : p.value env ∈ values.map .ok :=
          map_eq_of_mapM_eq_ok hvalues ▸ List.mem_map_of_mem hp
        simp [hvalue] at hmem
      | error name => simp [filled, joined, hvalues, Except.map] at hout
  · intro hall
    cases hfilled : filled env field parts with
    | ok out => exact ⟨out, rfl⟩
    | error cause =>
      obtain ⟨before, p, after, name, rfl, -, hp, -⟩ := filled_eq_error_iff.1 hfilled
      obtain ⟨v, hv⟩ := hall p (by simp)
      simp [hp] at hv

section Braces

variable {read braces : List Part}

theorem Begins.exists_brace (h : Begins p s rest) (hp : p.IsBraced) :
    ∃ body, s = '$' :: '\x7b' :: body := by
  cases h with
  | braced => exact ⟨_, rfl⟩
  | doubled => exact hp.elim
  | bare => exact hp.elim

/-- Without stray dollar signs a text is read in the same way if only braces count. -/
theorem Reads.braces_of_no_stray (h : Reads (fun _ => True) s read)
    (hno : ∀ p ∈ read, ¬p.IsStray) : Reads Part.IsBraced s read := by
  induction h with
  | nil => exact .nil
  | @reference p _ _ _ _ hbegins _ ih =>
    obtain ⟨hp, hno⟩ := List.forall_mem_cons.1 hno
    refine .reference ?_ hbegins (ih hno)
    cases hbegins with
    | braced => trivial
    | doubled => exact hp trivial
    | bare => exact hp trivial
  | plain hplain _ ih =>
    exact .plain (fun p rest _ => hplain p rest trivial) (ih (List.forall_mem_cons.1 hno).2)

/-- A text without a braced reference is left alone if only these count. -/
theorem Reads.joined_of_no_brace (h : Reads Part.IsBraced s braces)
    (hno : ¬['$', '\x7b'] <:+: s) : joined env braces = .ok s := by
  induction h with
  | nil => rfl
  | reference hp hbegins =>
    obtain ⟨body, rfl⟩ := hbegins.exists_brace hp
    exact absurd ⟨[], body, rfl⟩ hno
  | plain _ _ ih =>
    rw [joined_cons, ih fun hpart => hno (hpart.trans (List.suffix_cons ..).isInfix)]
    rfl

/-- The values of parts where every variable has the value `x`. -/
def Part.stub : Part → List Char
  | plain c => [c]
  | doubled => ['$']
  | braced .. | bare _ => ['x']

theorem replicate_append_cons (n : Nat) (c : Char) (s : List Char) :
    List.replicate n c ++ c :: s = c :: (List.replicate n c ++ s) := by
  rw [← List.singleton_append, ← List.append_assoc, ← List.replicate_succ', List.replicate_succ,
    List.cons_append]

/-- A dollar sign that is lost is missing for good: what comes out if all references count is no
longer text with dollar signs before it than what comes out if only braces count, and the two are
the same only without stray dollar signs. -/
theorem Reads.no_stray_of_stubs_eq (h : Reads (fun _ => True) s read)
    (hb : Reads Part.IsBraced s braces) {n : Nat}
    (heq : read.flatMap Part.stub = List.replicate n '$' ++ braces.flatMap Part.stub) :
    n = 0 ∧ ∀ p ∈ read, ¬p.IsStray := by
  induction h generalizing braces n with
  | nil =>
    obtain ⟨hn, -⟩ := List.append_eq_nil_iff.1 heq.symm
    exact ⟨by simpa using hn, by simp⟩
  | @reference p s rest parts _ hbegins hrest ih =>
    have hother : ¬p.IsBraced → ∀ q rest, q.IsBraced → ¬Begins q s rest := by
      intro hp q rest hq hbegins'
      rw [(hbegins.unique hbegins').1] at hp
      exact hp hq
    cases p with
    | plain c => cases hbegins
    | braced name default =>
      have hcounts : (Part.braced name default).IsBraced := trivial
      obtain ⟨tail, rfl, htail⟩ := hb.exists_of_begins hcounts hbegins
      cases n with
      | zero =>
        obtain ⟨-, hno⟩ := ih htail (n := 0) (List.cons.inj heq).2
        exact ⟨rfl, List.forall_mem_cons.2 ⟨id, hno⟩⟩
      | succ n => exact absurd (List.cons.inj heq).1 (by decide)
    | bare name =>
      obtain ⟨c, tail, rfl⟩ := hbegins.exists_cons
      obtain ⟨braces, rfl, -⟩ := hb.exists_of_not_begins (hother id)
      rw [List.flatMap_cons, List.flatMap_cons, Part.stub, Part.stub, List.singleton_append,
        List.singleton_append, replicate_append_cons] at heq
      exact absurd (List.cons.inj heq).1 (by decide)
    | doubled =>
      have hno := hother id
      cases hbegins
      obtain ⟨tail, rfl, htail⟩ := hb.exists_of_not_begins hno
      rw [List.flatMap_cons, List.flatMap_cons, Part.stub, Part.stub, List.singleton_append,
        List.singleton_append, replicate_append_cons] at heq
      have hlost := (List.cons.inj heq).2
      -- the second dollar sign is lost, so a brace behind it is no longer that of a reference
      by_cases hbrace : ∃ q rest', q.IsBraced ∧ Begins q ('$' :: rest) rest'
      · obtain ⟨q, rest', hq, hbegins⟩ := hbrace
        obtain ⟨after, rfl, -⟩ := htail.exists_of_begins hq hbegins
        obtain ⟨body, hbody⟩ := hbegins.exists_brace hq
        obtain ⟨-, rfl⟩ := List.cons.inj hbody
        obtain ⟨parts, rfl, -⟩ := hrest.exists_of_not_begins fun p rest _ hp => by
          simpa using hp.exists_cons
        cases q with
        | braced name default => cases n <;> exact absurd (List.cons.inj hlost).1 (by decide)
        | plain c => exact hq.elim
        | doubled => exact hq.elim
        | bare name => exact hq.elim
      · obtain ⟨after, rfl, hafter⟩ := htail.exists_of_not_begins fun q rest' hq hbegins =>
          hbrace ⟨q, rest', hq, hbegins⟩
        rw [List.flatMap_cons, Part.stub, List.singleton_append, replicate_append_cons,
          ← List.cons_append, ← List.replicate_succ] at hlost
        exact absurd (ih hafter hlost).1 (by simp)
  | @plain c s parts hplain hrest ih =>
    obtain ⟨tail, rfl, htail⟩ := hb.exists_of_not_begins fun p rest _ => hplain p rest trivial
    rw [List.flatMap_cons, List.flatMap_cons, Part.stub, List.singleton_append,
      List.singleton_append] at heq
    by_cases hc : c = '$'
    · subst hc
      rw [replicate_append_cons] at heq
      obtain ⟨hn, hno⟩ := ih htail (List.cons.inj heq).2
      exact ⟨hn, List.forall_mem_cons.2 ⟨id, hno⟩⟩
    · cases n with
      | zero =>
        obtain ⟨-, hno⟩ := ih htail (n := 0) (List.cons.inj heq).2
        exact ⟨rfl, List.forall_mem_cons.2 ⟨id, hno⟩⟩
      | succ n => exact absurd (List.cons.inj heq).1 hc

/-- An environment in which all variables of some parts have the value `x`. -/
theorem exists_stubs (parts : List Part) :
    ∃ env : Environment, ∀ p ∈ parts, p.value env = .ok p.stub := by
  refine ⟨Dict.ofList ((parts.filterMap Part.name?).map fun name => (String.ofList name, "x")),
    fun p hp => ?_⟩
  have hset : ∀ name ∈ p.name?, Dict.find? (String.ofList name) (Dict.ofList
      ((parts.filterMap Part.name?).map fun name => (String.ofList name, "x"))) = some "x" := by
    intro name hname
    have hmem := List.mem_map_of_mem (f := fun name => (String.ofList name, "x"))
      (List.mem_filterMap.2 ⟨p, hp, hname⟩)
    refine Dict.find?_ofList_of_mem (fun e he => ?_) (List.mem_map_of_mem hmem)
    obtain ⟨name, -, rfl⟩ := List.mem_map.1 he
    rfl
  cases p with
  | plain c => rfl
  | doubled => rfl
  | braced name default => simp [Part.value, hset name rfl, Part.stub]
  | bare name => simp [Part.value, hset name rfl, Part.stub]

theorem filled_of_stubs {parts : List Part} (h : ∀ p ∈ parts, p.value env = .ok p.stub) :
    filled env field parts = .ok (String.ofList (parts.flatMap Part.stub)) := by
  have hjoined : joined env parts = .ok (parts.flatMap Part.stub) := by
    induction parts with
    | nil => rfl
    | cons p parts ih =>
      obtain ⟨hp, hparts⟩ := List.forall_mem_cons.1 h
      rw [joined_cons, hp, ih hparts]
      rfl
  rw [filled, hjoined]

/-- All variables have a value whose references in braces come without a text for the other case. -/
def IsSet (env : Environment) (parts : List Part) : Prop :=
  ∀ name, .braced name none ∈ parts → ∃ v, Dict.find? (String.ofList name) env = some v

theorem Reads.exists_filled_iff_isSet (h : Reads Part.IsBraced s braces) (field : String) :
    (∃ out, filled env field braces = .ok out) ↔ IsSet env braces := by
  rw [exists_filled_iff]
  constructor
  · intro hall name hname
    obtain ⟨v, hv⟩ := hall _ hname
    simp only [Part.value] at hv
    split at hv
    · rename_i w hw
      exact ⟨w, hw⟩
    · contradiction
    · contradiction
  · intro hset p hp
    obtain hcounts | ⟨c, rfl⟩ := h.counts_or_plain hp
    · cases p with
      | braced name default =>
        cases default with
        | none =>
          obtain ⟨v, hv⟩ := hset name hp
          exact ⟨v.toList, by simp [Part.value, hv]⟩
        | some text =>
          cases hv : Dict.find? (String.ofList name) env with
          | some v => exact ⟨v.toList, by simp [Part.value, hv]⟩
          | none => exact ⟨text, by simp [Part.value, hv]⟩
      | plain c => exact hcounts.elim
      | doubled => exact hcounts.elim
      | bare name => exact hcounts.elim
    · exact ⟨[c], rfl⟩

end Braces

/-- Every text has one reading with all references and one with only those in braces. With a brace
after a dollar sign anywhere the first one says what comes out, and otherwise the text is left
alone. If such a text has no stray dollar signs, then just its references in braces are replaced,
and this fails only if one of these without a text for that case is not set. With stray dollar
signs something else comes out in some environment in which these are all set. -/
theorem expandText_replaces_braces (s : String) : ∃ read braces : List Part,
    (∀ parts, Reads (fun _ => True) s.toList parts ↔ parts = read) ∧
    (∀ parts, Reads Part.IsBraced s.toList parts ↔ parts = braces) ∧
    (∀ env field, ['$', '\x7b'] <:+: s.toList →
      expandText env field s = filled env field read) ∧
    (∀ env field, ¬['$', '\x7b'] <:+: s.toList → expandText env field s = .ok s) ∧
    (∀ env field, (∃ out, filled env field braces = .ok out) ↔ IsSet env braces) ∧
    ((['$', '\x7b'] <:+: s.toList → ∀ p ∈ read, ¬p.IsStray) →
      ∀ env field, expandText env field s = filled env field braces) ∧
    ((∀ env field, IsSet env braces → expandText env field s = filled env field braces) →
      ['$', '\x7b'] <:+: s.toList → ∀ p ∈ read, ¬p.IsStray) := by
  obtain ⟨read, hread⟩ := exists_reads (fun _ => True) s.toList
  obtain ⟨braces, hbraces⟩ := exists_reads Part.IsBraced s.toList
  have hexpand : ∀ env field, ['$', '\x7b'] <:+: s.toList →
      expandText env field s = filled env field read := by
    intro env field hbrace
    rw [expandText, if_pos (Text.hasWord_iff.2 hbrace), expandChars_eq_joined hread]
    rfl
  have hleave : ∀ env field, ¬['$', '\x7b'] <:+: s.toList → expandText env field s = .ok s := by
    intro env field hbrace
    rw [expandText, if_neg (mt Text.hasWord_iff.1 hbrace)]
  refine ⟨read, braces, fun parts => ⟨fun h => h.unique hread, fun h => h ▸ hread⟩,
    fun parts => ⟨fun h => h.unique hbraces, fun h => h ▸ hbraces⟩, hexpand, hleave,
    fun env field => hbraces.exists_filled_iff_isSet field, fun hno env field => ?_,
    fun hsame hbrace => ?_⟩
  · by_cases hbrace : ['$', '\x7b'] <:+: s.toList
    · rw [hexpand env field hbrace, (hread.braces_of_no_stray (hno hbrace)).unique hbraces]
    · have hjoined : joined env braces = .ok s.toList := hbraces.joined_of_no_brace hbrace
      rw [hleave env field hbrace]
      simp only [filled, hjoined, String.ofList_toList]
  · obtain ⟨env, henv⟩ := exists_stubs (read ++ braces)
    have hleft : filled env "" read = _ := filled_of_stubs fun p hp => henv p (by simp [hp])
    have hright : filled env "" braces = _ := filled_of_stubs fun p hp => henv p (by simp [hp])
    have hset : IsSet env braces := (hbraces.exists_filled_iff_isSet "").1 ⟨_, hright⟩
    have heq := hsame env "" hset
    rw [hexpand env "" hbrace, hleft, hright, Except.ok.injEq, String.ofList_inj] at heq
    exact (hread.no_stray_of_stubs_eq hbraces (n := 0) heq).2

/-- A price after a reference in braces is read as a reference, to a variable that is not set. -/
theorem expandText_price_unset :
    Reads Part.IsBraced "$\x7bA\x7d costs $5".toList
        (.braced ['A'] none :: " costs $5".toList.map .plain) ∧
      IsSet [("A", "x")] (.braced ['A'] none :: " costs $5".toList.map .plain) ∧
      filled [("A", "x")] "variables.price" (.braced ['A'] none :: " costs $5".toList.map .plain) =
        .ok "x costs $5" ∧
      expandText [("A", "x")] "variables.price" "$\x7bA\x7d costs $5" =
        .error (.unset "variables.price" "5") := by
  have hdivides : Divides ['A'] ['A'] none := by
    refine ⟨rfl, fun before after hcut => ?_⟩
    have hsplit := Text.splitAt?_eq_some_iff.2 hcut
    rw [show Text.splitAt? [':', '-'] ['A'] = none by decide] at hsplit
    contradiction
  have hbegins : Begins (.braced ['A'] none) "$\x7bA\x7d costs $5".toList " costs $5".toList :=
    .braced (by decide) hdivides
  have hword : '$' ∉ " costs ".toList := by decide
  have hprice : Reads Part.IsBraced ['$', '5'] [.plain '$', .plain '5'] := by
    refine .plain (fun p rest hp hbegins => ?_) (.plain_append (w := ['5']) (by decide) .nil)
    simpa using hbegins.exists_brace hp
  have hbare : Begins (.bare ['5']) ['$', '5'] [] :=
    .bare (by simp) (List.all_eq_true.1 (by decide)) (by simp)
  have hbraces : Reads Part.IsBraced "$\x7bA\x7d costs $5".toList
      (.braced ['A'] none :: " costs $5".toList.map .plain) :=
    .reference trivial hbegins (.plain_append hword hprice)
  have hread : Reads (fun _ => True) "$\x7bA\x7d costs $5".toList
      (.braced ['A'] none :: (" costs ".toList.map .plain ++ [.bare ['5']])) :=
    .reference trivial hbegins (.plain_append hword (.reference trivial hbare .nil))
  have hfilled : filled [("A", "x")] "variables.price"
      (.braced ['A'] none :: " costs $5".toList.map .plain) = .ok "x costs $5" := rfl
  have hset := (hbraces.exists_filled_iff_isSet "variables.price").1 ⟨_, hfilled⟩
  refine ⟨hbraces, hset, hfilled, ?_⟩
  rw [expandText, if_pos (by decide), expandChars_eq_joined hread]
  rfl

end DocSite.Config
