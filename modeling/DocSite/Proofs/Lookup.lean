import DocSite.Proofs.Extract
import DocSite.Proofs.Site.Index

namespace DocSite

def BeginsPlainly (s : String) : Prop := ∀ c ∈ s.toList.head?, Text.isBlank c = false

/-- A text that ends neither in a blank nor in an array mark. -/
def EndsPlainly (s : String) : Prop :=
  (∀ c ∈ s.toList.getLast?, Text.isBlank c = false) ∧ ¬['[', ']'] <:+ s.toList

theorem endsPlainly_absolute {name : String} (h : EndsPlainly name) :
    EndsPlainly (separator.toString ++ name) := by
  obtain ⟨hlast, hmark⟩ := h
  rw [EndsPlainly, toList_separator_append]
  constructor
  · cases hname : name.toList with
    | nil =>
      rintro c ⟨⟩
      decide
    | cons c s =>
      rw [hname] at hlast
      simpa using hlast
  · rw [List.suffix_cons_iff, not_or]
    exact ⟨by simp [separator], hmark⟩

namespace Model

variable {m : Model} {d : Decl} {name ns : String}

theorem find?_eq_some_iff : m.find? name = some d ↔ d ∈ m.types ∧ d.name = bareName name :=
  find?_name_eq_some m.names_nodup

theorem find?_name (hd : d ∈ m.types) (hcanonical : d.Canonical) : m.find? d.name = some d :=
  find?_eq_some_iff.2 ⟨hd, (bareName_eq_self_iff.2 hcanonical.name).symm⟩

theorem writtenName_eq_self (hbegin : BeginsPlainly name) (hend : EndsPlainly name) :
    writtenName name = name := by
  have htrim : Text.trim name = name := by
    rw [Text.trim, Text.trimWhile_eq_self hbegin hend.1, String.ofList_toList]
  have hmark : Text.before? ['[', ']'] name.toList = none := by
    rw [Option.eq_none_iff_forall_ne_some]
    intro rest hrest
    exact hend.2 ⟨rest, (Text.before?_eq_some_iff.1 hrest).symm⟩
  simp only [writtenName, htrim, hmark]

/-- An absolute name is looked up as it stands, in every namespace. -/
theorem resolve?_absolute (hend : EndsPlainly name) :
    m.resolve? (separator.toString ++ name) ns = m.find? name := by
  have hbegin : BeginsPlainly (separator.toString ++ name) := by
    rw [BeginsPlainly, toList_separator_append]
    rintro c ⟨⟩
    decide
  have hne : separator.toString ++ name ≠ "" := by
    rw [← String.toList_inj.ne, toList_separator_append]
    simp
  have hhead : (separator.toString ++ name).toList.head? = some separator := by
    rw [toList_separator_append, List.head?_cons]
  rw [resolve?, writtenName_eq_self hbegin (endsPlainly_absolute hend), if_neg hne, if_pos hhead,
    find?, bareName_separator_append, find?]

/-- Any other name is looked up in the namespace first. -/
theorem resolve?_relative (hbegin : BeginsPlainly name) (hend : EndsPlainly name) (hne : name ≠ "")
    (hhead : name.toList.head? ≠ some separator) : m.resolve? name ns =
      if ns = "" then m.find? name
      else (m.find? (ns ++ separator.toString ++ name)).or (m.find? name) := by
  rw [resolve?, writtenName_eq_self hbegin hend, if_neg hne, if_neg hhead]

theorem resolve?_shortName (hd : d ∈ m.types) (hcanonical : d.Canonical) (hderived : d.Derived)
    (hbegin : BeginsPlainly d.shortName) (hend : EndsPlainly d.shortName)
    (hne : d.shortName ≠ "") : m.resolve? d.shortName d.ns = some d := by
  have hfound : m.find? d.name = some d := find?_name hd hcanonical
  have hhead : d.shortName.toList.head? ≠ some separator :=
    fun h => hcanonical.shortName (List.mem_of_mem_head? h)
  rw [resolve?_relative hbegin hend hne hhead]
  by_cases hsep : separator ∈ d.name.toList
  · have hname := hderived.nested hsep
    have hns : d.ns ≠ "" := by
      intro hempty
      rw [hempty, String.empty_append] at hname
      refine hcanonical.name ?_
      rw [hname, toList_separator_append, List.head?_cons]
    rw [if_neg hns, ← hname, hfound, Option.some_or]
  · obtain ⟨hns, hshort⟩ := hderived.plain hsep
    rw [if_pos hns, hshort, hfound]

/-- A full name means its type, unless a type of the namespace hides it. -/
theorem resolve?_fullName (hd : d ∈ m.types) (hcanonical : d.Canonical)
    (hbegin : BeginsPlainly d.name) (hend : EndsPlainly d.name) (hne : d.name ≠ "") :
    (∀ e ∈ m.types, ns ≠ "" → e.name = bareName (ns ++ separator.toString ++ d.name) →
      m.resolve? d.name ns = some e) ∧
    ((ns = "" ∨ ∀ e ∈ m.types, e.name ≠ bareName (ns ++ separator.toString ++ d.name)) →
      m.resolve? d.name ns = some d) := by
  have hfound : m.find? d.name = some d := find?_name hd hcanonical
  rw [resolve?_relative hbegin hend hne hcanonical.name, hfound]
  constructor
  · intro e he hns hname
    rw [if_neg hns, find?_eq_some_iff.2 ⟨he, hname⟩, Option.some_or]
  · rintro (hns | hnone)
    · rw [if_pos hns]
    · have hmissing : m.find? (ns ++ separator.toString ++ d.name) = none := by
        rw [Option.eq_none_iff_forall_ne_some]
        intro e he
        obtain ⟨he, hname⟩ := find?_eq_some_iff.1 he
        exact hnone e he hname
      rw [hmissing, Option.none_or, ite_self]

/-- The records of a document make a model just if no two of them have the same name, leading
separators apart; otherwise the first name that is met again is the cause. In the model each type
has its name and no other: it is found by that name, by the name as an absolute one in every
namespace, by its short name in its own namespace, and by its full name in any namespace that has no
type of that name, which would be found instead. -/
theorem lookup_inverts_naming (base : Path) (doc : Extract.Document) :
    (∀ text, (Json.Node.parse? text).bind Extract.Document.read? = some doc →
      ofJson text base = ofTypes (doc.rootAt base) (doc.decls base)) ∧
    ((∃ cause, ofTypes (doc.rootAt base) (doc.decls base) = .error cause) ↔
      ¬(doc.types.map fun r => bareName r.name).Nodup) ∧
    (∀ cause, ofTypes (doc.rootAt base) (doc.decls base) = .error cause ↔
      ∃ name before after, cause = .duplicate name ∧
        (doc.types.map fun r => bareName r.name) = before ++ name :: after ∧
        before.Nodup ∧ name ∈ before) ∧
    ∀ m, ofTypes (doc.rootAt base) (doc.decls base) = .ok m →
      m.types = doc.types.map (Extract.Record.decl base) ∧
      (∀ name d, m.find? name = some d ↔ d ∈ m.types ∧ d.name = bareName name) ∧
      (∀ d ∈ m.types, ∀ ns, EndsPlainly d.name →
        m.resolve? (separator.toString ++ d.name) ns = some d) ∧
      (∀ r ∈ doc.types, r.ns = none → (r.decl base).Derived) ∧
      (∀ d ∈ m.types, d.Derived → BeginsPlainly d.shortName → EndsPlainly d.shortName →
        d.shortName ≠ "" → m.resolve? d.shortName d.ns = some d) ∧
      ∀ d ∈ m.types, ∀ ns, BeginsPlainly d.name → EndsPlainly d.name → d.name ≠ "" →
        (∀ e ∈ m.types, ns ≠ "" → e.name = bareName (ns ++ separator.toString ++ d.name) →
          m.resolve? d.name ns = some e) ∧
        ((ns = "" ∨ ∀ e ∈ m.types, e.name ≠ bareName (ns ++ separator.toString ++ d.name)) →
          m.resolve? d.name ns = some d) := by
  have hnames : (doc.decls base).map Decl.name = doc.types.map fun r => bareName r.name := by
    rw [Extract.Document.decls, List.map_map]
    rfl
  refine ⟨fun text hdoc => ?_, ?_, fun cause => ?_, fun m hm => ?_⟩
  · rw [ofJson_eq, hdoc]
  · rw [exists_ofTypes_eq_error_iff, hnames]
  · rw [ofTypes_eq_error_iff, hnames]
  · have htypes : m.types = doc.types.map (Extract.Record.decl base) := (ofTypes_eq_ok hm).2
    have hcanonical : ∀ d ∈ m.types, d.Canonical :=
      fun d hd => Extract.Document.canonical_of_mem (htypes ▸ hd)
    refine ⟨htypes, fun name d => find?_eq_some_iff, fun d hd ns hend => ?_, fun r _ hns => ?_,
      fun d hd => resolve?_shortName hd (hcanonical d hd),
      fun d hd ns => resolve?_fullName hd (hcanonical d hd)⟩
    · rw [resolve?_absolute hend, find?_name hd (hcanonical d hd)]
    · exact r.derived_decl base hns

/-- A type hides one outside its namespace, unless that is written as an absolute name. A name that
stands with and without a separator before it is refused. -/
theorem lookup_inverts_naming_hidden :
    let base : Path := ⟨"/p"⟩
    let inner : Extract.Record := { name := "A\\Foo" }
    let outer : Extract.Record := { name := "\\Foo" }
    (∃ m, ofTypes base [inner.decl base, outer.decl base] = .ok m ∧
      m.find? "\\\\Foo" = some (outer.decl base) ∧
      m.resolve? "\\Foo" "A" = some (outer.decl base) ∧
      m.resolve? "Foo" "A" = some (inner.decl base) ∧
      m.resolve? "Foo" "B" = some (outer.decl base)) ∧
    ofTypes base [inner.decl base, outer.decl base, { outer with name := "Foo" }.decl base] =
      .error (.duplicate "Foo") := by
  intro base inner outer
  have hinner : (inner.decl base).name = "A\\Foo" := by decide
  have hshort : (inner.decl base).shortName = "Foo" := by decide
  have hns : (inner.decl base).ns = "A" := by decide
  have houter : (outer.decl base).name = "Foo" := by decide
  have hbegin : BeginsPlainly "Foo" := by
    intro c hc
    obtain rfl : 'F' = c := by simpa using hc
    decide
  have hend : EndsPlainly "Foo" := by
    refine ⟨fun c hc => ?_, by decide⟩
    obtain rfl : 'o' = c := by simpa using hc
    decide
  obtain ⟨-, hfails, -, hmodel⟩ := lookup_inverts_naming base { types := [inner, outer] }
  obtain ⟨-, -, hcause, -⟩ :=
    lookup_inverts_naming base { types := [inner, outer, { outer with name := "Foo" }] }
  refine ⟨?_, (hcause _).2 ⟨"Foo", ["A\\Foo", "Foo"], [], rfl, by decide, by decide, by decide⟩⟩
  cases hm : ofTypes base [inner.decl base, outer.decl base] with
  | error cause => exact absurd (by decide) (hfails.1 ⟨cause, hm⟩)
  | ok m =>
    obtain ⟨htypes, hfind, habsolute, hderived, hrelative, hfull⟩ := hmodel m hm
    have hin : inner.decl base ∈ m.types := htypes ▸ .head _
    have hout : outer.decl base ∈ m.types := htypes ▸ .tail _ (.head _)
    refine ⟨m, rfl, ?_, ?_, ?_, ?_⟩
    · exact (hfind _ _).2 ⟨hout, by rw [houter]; decide⟩
    · have hmarked : "\\Foo" = separator.toString ++ (outer.decl base).name := by
        rw [houter]
        decide
      rw [hmarked]
      exact habsolute _ hout "A" (houter ▸ hend)
    · have hmeant := hrelative _ hin (hderived inner (.head _) rfl)
      rw [hshort, hns] at hmeant
      exact hmeant hbegin hend (by decide)
    · have hmeant := (hfull _ hout "B" (houter ▸ hbegin) (houter ▸ hend) (by rw [houter]; decide)).2
      rw [houter] at hmeant
      refine hmeant (.inr fun e he => ?_)
      rw [htypes] at he
      rcases List.mem_pair.1 he with rfl | rfl
      · rw [hinner]
        decide
      · rw [houter]
        decide

end Model
end DocSite
