import DocSite.Proofs.Decl
import DocSite.Proofs.Json.Record
import DocSite.Proofs.Model

namespace DocSite

/-- What a declaration whose names were brought to their one form has. -/
structure Decl.Canonical (d : Decl) : Prop where
  name : d.name.toList.head? ≠ some separator
  parent : ∀ p ∈ d.parent, p.toList.head? ≠ some separator
  interfaces : ∀ i ∈ d.interfaces, i.toList.head? ≠ some separator
  shortName : separator ∉ d.shortName.toList

/-- The namespace of a declaration is what stands before the last separator of its name, and the
short name what stands behind it. -/
structure Decl.Derived (d : Decl) : Prop where
  nested : separator ∈ d.name.toList → d.name = d.ns ++ separator.toString ++ d.shortName
  plain : separator ∉ d.name.toList → d.ns = "" ∧ d.shortName = d.name

namespace Extract

open Json (Node)
open Json.Node

variable {base : Path} {node node' : Node} {v v' : Option Node}

def AddsLeading (v v' : Node) : Prop :=
  ∃ n s, v = .str (some s) ∧ v' = .str (some (separators n ++ s))

def AddsAround (v v' : Node) : Prop :=
  ∃ m n s, v = .str (some s) ∧ v' = .str (some (separators m ++ s ++ separators n))

def RespellsField : String → Node → Node → Prop
  | "name", v, v' => v' = v ∨ AddsLeading v v'
  | "parent", v, v' => v' = v ∨ AddsLeading v v'
  | "namespace", v, v' => v' = v ∨ AddsAround v v'
  | "interfaces", v, v' => v' = v ∨ ∃ items items', v = .list items ∧ v' = .list items' ∧
      List.Forall₂ (fun i i' => i' = i ∨ AddsLeading i i') items items'
  | _, v, v' => v' = v

def RespellsTypes : String → Node → Node → Prop
  | "types", v, v' => v' = v ∨ ∃ items items', v = .list items ∧ v' = .list items' ∧
      List.Forall₂ (Alike RespellsField Record.fields) items items'
  | _, v, v' => v' = v

/-- Two spellings of a document: the second has more separators at the names in it. -/
def Respells (node node' : Node) : Prop := Alike RespellsTypes ["root", "types"] node node'

/-- A record with its names in their one form. -/
def Record.canonical (r : Record) : Record :=
  { r with
    name := bareName r.name
    ns := r.ns.map (Text.trimChar separator)
    parent := r.parent.map bareName
    interfaces := r.interfaces.map bareName }

theorem Record.decl_eq_of_canonical_eq {r r' : Record} (h : r.canonical = r'.canonical) :
    r.decl base = r'.decl base := by
  cases r
  cases r'
  simp only [canonical, mk.injEq] at h
  obtain ⟨hname, hns, rfl, rfl, rfl, hparent, hinterfaces, rfl, rfl, rfl, rfl, rfl, rfl, rfl⟩ := h
  simp only [decl, hname, hns, hparent, hinterfaces]

theorem respellsField_refl (field : String) (v : Node) : RespellsField field v v := by
  unfold RespellsField
  split <;> simp

theorem respellsTypes_refl (field : String) (v : Node) : RespellsTypes field v v := by
  unfold RespellsTypes
  split <;> simp

theorem eq_of_rel {α : Type} {x y : Option α} (h : Option.Rel (fun a b => b = a) x y) : y = x := by
  cases h with
  | none => rfl
  | some hab => rw [hab]

theorem text?_rel {a b : Node} (h : b = a ∨ AddsLeading a b) :
    Option.Rel (fun s t => bareName s = bareName t) (text? a) (text? b) := by
  rcases h with rfl | ⟨n, s, rfl, rfl⟩
  · exact rel_refl _ fun _ => rfl
  · exact .some (bareName_separators_append n s).symm

theorem nullable_rel {f : String → String} {adds : Node → Node → Prop}
    (hadds : ∀ a b, adds a b → ∃ s t, a = .str (some s) ∧ b = .str (some t) ∧ f s = f t)
    (h : Option.Rel (fun a b => b = a ∨ adds a b) v v') :
    Option.Rel (fun s t => s.map f = t.map f) (optional? (orNull? text?) none v)
      (optional? (orNull? text?) none v') := by
  cases h with
  | none => exact .some rfl
  | some hab =>
    rcases hab with rfl | hab
    · exact rel_refl _ fun _ => rfl
    · obtain ⟨s, t, rfl, rfl, hst⟩ := hadds _ _ hab
      exact .some (congrArg some hst)

theorem parent_rel (h : Option.Rel (RespellsField "parent") v v') :
    Option.Rel (fun s t => s.map bareName = t.map bareName) (optional? (orNull? text?) none v)
      (optional? (orNull? text?) none v') := by
  refine nullable_rel ?_ h
  rintro a b ⟨n, s, rfl, rfl⟩
  exact ⟨s, _, rfl, rfl, (bareName_separators_append n s).symm⟩

theorem namespace_rel (h : Option.Rel (RespellsField "namespace") v v') :
    Option.Rel (fun s t => s.map (Text.trimChar separator) = t.map (Text.trimChar separator))
      (optional? (orNull? text?) none v) (optional? (orNull? text?) none v') := by
  refine nullable_rel ?_ h
  rintro a b ⟨m, n, s, rfl, rfl⟩
  exact ⟨s, _, rfl, rfl, (trimChar_separators m n s).symm⟩

theorem interfaces_rel (h : Option.Rel (RespellsField "interfaces") v v') :
    Option.Rel (fun s t => s.map bareName = t.map bareName) (optional? (list? text?) [] v)
      (optional? (list? text?) [] v') := by
  cases h with
  | none => exact .some rfl
  | some hab =>
    rcases hab with rfl | ⟨items, items', rfl, rfl, hitems⟩
    · exact rel_refl _ fun _ => rfl
    · exact rel_mono (rel_mapM hitems fun _ _ => text?_rel) fun _ _ hnames =>
        (map_eq_of_forall₂ hnames fun _ _ => Eq.symm).symm

/-- Two spellings of a type are read as records that differ in the spelling of names only. -/
theorem Record.read?_rel (h : Alike RespellsField fields node node') :
    Option.Rel (fun r r' : Record => r.canonical = r'.canonical) (read? node) (read? node') := by
  refine rel_bind (record?_rel respellsField_refl h) fun vs vs' hvs => ?_
  obtain _ | ⟨hname, _ | ⟨hns, _ | ⟨hpackage, _ | ⟨hinterface, _ | ⟨hexception, _ | ⟨hparent,
    _ | ⟨hinterfaces, _ | ⟨huser, _ | ⟨hfile, _ | ⟨hline, _ | ⟨hsummary, _ | ⟨hdescription,
    _ | ⟨hannotations, _ | ⟨hmembers, _ | _⟩⟩⟩⟩⟩⟩⟩⟩⟩⟩⟩⟩⟩⟩ := hvs
  obtain rfl := eq_of_rel hpackage
  obtain rfl := eq_of_rel hinterface
  obtain rfl := eq_of_rel hexception
  obtain rfl := eq_of_rel huser
  obtain rfl := eq_of_rel hfile
  obtain rfl := eq_of_rel hline
  obtain rfl := eq_of_rel hsummary
  obtain rfl := eq_of_rel hdescription
  obtain rfl := eq_of_rel hannotations
  obtain rfl := eq_of_rel hmembers
  -- the four fields that may differ are read to texts of one canonical form, the others to the same
  refine rel_bind (rel_bind hname fun _ _ => text?_rel) fun name name' hname => ?_
  refine rel_bind (namespace_rel hns) fun ns ns' hns => ?_
  refine rel_bind_same fun package => rel_bind_same fun isInterface =>
    rel_bind_same fun isException => ?_
  refine rel_bind (parent_rel hparent) fun parent parent' hparent => ?_
  refine rel_bind (interfaces_rel hinterfaces) fun interfaces interfaces' hinterfaces => ?_
  refine rel_bind_same fun userDefined => rel_bind_same fun file => rel_bind_same fun line =>
    rel_bind_same fun summary => rel_bind_same fun description => rel_bind_same fun annotations =>
    rel_bind_same fun members => .some ?_
  simp only [canonical, hname, hns, hparent, hinterfaces]

theorem Document.read?_rel (h : Respells node node') :
    Option.Rel (fun d d' : Document => d.root = d'.root ∧
      List.Forall₂ (fun r r' : Record => r.canonical = r'.canonical) d.types d'.types)
      (read? node) (read? node') := by
  refine rel_bind (record?_rel respellsTypes_refl h) fun vs vs' hvs => ?_
  obtain _ | ⟨hroot, _ | ⟨htypes, _ | _⟩⟩ := hvs
  obtain rfl := eq_of_rel hroot
  refine rel_bind_same fun root => rel_bind ?_ fun types types' htypes => .some ⟨rfl, htypes⟩
  cases htypes with
  | none => exact .some .nil
  | some hab =>
    rcases hab with rfl | ⟨items, items', rfl, rfl, hitems⟩
    · exact rel_refl _ fun types => List.forall₂_same.2 fun _ _ => rfl
    · exact rel_mapM hitems fun _ _ => Record.read?_rel

theorem document?_eq_of_respells (h : Respells node node') :
    document? base node = document? base node' := by
  have hread := Document.read?_rel h
  unfold document?
  generalize Document.read? node = d at hread ⊢
  generalize Document.read? node' = d' at hread ⊢
  cases hread with
  | none => rfl
  | some hd =>
    obtain ⟨hroot, htypes⟩ := hd
    have hdecls : _ = List.map (Record.decl base) _ :=
      map_eq_of_forall₂ htypes fun _ _ hr => (Record.decl_eq_of_canonical_eq hr).symm
    simp only [Option.map_some, Document.rootAt, hroot, Document.decls, hdecls]

namespace Record

variable {r : Record}

theorem decl_name : (r.decl base).name = bareName r.name := by
  simp only [decl]

theorem decl_shortName : (r.decl base).shortName = (splitName (bareName r.name)).2 := by
  simp only [decl]

theorem decl_ns : (r.decl base).ns =
    (r.ns.map (Text.trimChar separator)).getD (splitName (bareName r.name)).1 := by
  simp only [decl]

theorem decl_parent : (r.decl base).parent = r.parent.map bareName := by
  simp only [decl]

theorem decl_interfaces : (r.decl base).interfaces = r.interfaces.map bareName := by
  simp only [decl]

theorem canonical_decl (base : Path) (r : Record) : (r.decl base).Canonical := by
  constructor
  case name =>
    rw [decl_name]
    exact head?_bareName r.name
  case shortName =>
    rw [decl_shortName]
    exact separator_not_mem_shortName _
  case parent =>
    rw [decl_parent]
    intro p hp
    obtain ⟨written, -, rfl⟩ := Option.map_eq_some_iff.1 hp
    exact head?_bareName written
  case interfaces =>
    rw [decl_interfaces]
    intro i hi
    obtain ⟨written, -, rfl⟩ := List.mem_map.1 hi
    exact head?_bareName written

end Record

theorem Document.canonical_of_mem {doc : Document} {d : Decl} (hd : d ∈ doc.decls base) :
    d.Canonical := by
  obtain ⟨r, -, rfl⟩ := List.mem_map.1 hd
  exact r.canonical_decl base

/-- The types of a model are those of the records in its document, and their names have one
form. -/
theorem canonical_of_ofJson {text : String} {m : Model} (hm : Model.ofJson text base = .ok m) :
    ∃ doc, (Node.parse? text).bind Document.read? = some doc ∧
      m.types = doc.types.map (Record.decl base) ∧ ∀ d ∈ m.types, d.Canonical := by
  rw [Model.ofJson_eq] at hm
  split at hm
  · simp at hm
  · rename_i doc hdoc
    have htypes : m.types = doc.decls base := (Model.ofTypes_eq_ok hm).2
    exact ⟨doc, hdoc, htypes, fun d hd => Document.canonical_of_mem (htypes ▸ hd)⟩

theorem derived_of_splitName {d : Decl} (hns : d.ns = (splitName d.name).1)
    (hshort : d.shortName = (splitName d.name).2) : d.Derived := by
  constructor
  case nested =>
    intro hsep
    rw [hns, hshort]
    exact (splitName_of_mem hsep).2
  case plain =>
    intro hsep
    rw [hns, hshort, splitName_of_not_mem hsep]
    exact ⟨rfl, rfl⟩

theorem Record.derived_decl (base : Path) (r : Record) (hns : r.ns = none) :
    (r.decl base).Derived := by
  refine derived_of_splitName ?_ ?_
  · rw [decl_ns, decl_name, hns, Option.map_none, Option.getD_none]
  · rw [decl_shortName, decl_name]

theorem derived_builtin (name : String) (kind : TypeKind) : (Decl.builtin name kind).Derived := by
  refine derived_of_splitName ?_ ?_
  · rw [Decl.builtin_ns, Decl.builtin_name]
  · rw [Decl.builtin_shortName, Decl.builtin_name]

/-- However the names in a document are spelled, it has the same types in the same order, or is
refused for the same cause. The names in its types have one form, which a type that is made from a
name has too; the namespaces agree if the document gives none, or the one that the name has. -/
theorem canonical_names_of_documents :
    (∀ (base : Path) (text text' : String) (node node' : Node), Node.parse? text = some node →
      Node.parse? text' = some node' → Respells node node' →
      Model.ofJson text base = Model.ofJson text' base) ∧
    (∀ (base : Path) (text : String) (m : Model), Model.ofJson text base = .ok m →
      ∃ doc, (Node.parse? text).bind Document.read? = some doc ∧
        m.types = doc.types.map (Record.decl base) ∧ ∀ d ∈ m.types, d.Canonical) ∧
    ∀ (base : Path) (r : Record) (kind : TypeKind),
      (r.ns = none → (r.decl base).Derived) ∧ (Decl.builtin r.name kind).Derived ∧
      (Decl.builtin r.name kind).name = (r.decl base).name ∧
      (Decl.builtin r.name kind).shortName = (r.decl base).shortName ∧
      ((Decl.builtin r.name kind).ns = (r.decl base).ns ↔
        ∀ ns ∈ r.ns, Text.trimChar separator ns = (Decl.builtin r.name kind).ns) := by
  refine ⟨fun base text text' node node' h h' hspell => ?_,
    fun base text m => canonical_of_ofJson,
    fun base r kind => ⟨r.derived_decl base, derived_builtin r.name kind, ?_, ?_, ?_⟩⟩
  · have hsame : document? base node = document? base node' := document?_eq_of_respells hspell
    simp only [Model.ofJson, h, h', Option.bind_some, hsame]
  · rw [Decl.builtin_name, Record.decl_name]
  · rw [Decl.builtin_shortName, Record.decl_shortName]
  · rw [Decl.builtin_ns, Record.decl_ns]
    cases hns : r.ns with
    | none => simp
    | some ns => simp [eq_comm]

/-- Two types, one written as an object and one as a list, without and with marks at the names. -/
theorem canonical_names_of_documents_marked :
    let base : Path := ⟨"/p"⟩
    let text := "\x7b\"types\": [\x7b\"name\": \"A\\\\Foo\", \"parent\": \"Foo\", " ++
      "\"interfaces\": [\"I\", \"J\"]\x7d, [\"Foo\", \"N\"]]\x7d"
    let marked := "\x7b\"types\": [\x7b\"name\": \"\\\\\\\\A\\\\Foo\", \"parent\": \"\\\\Foo\", " ++
      "\"interfaces\": [\"I\", \"\\\\J\"]\x7d, [\"\\\\Foo\", \"\\\\N\\\\\"]]\x7d"
    Model.ofJson text base = Model.ofJson marked base ∧
    (∃ m, Model.ofJson marked base = .ok m ∧ (∀ d ∈ m.types, d.Canonical) ∧
      m.types.map (fun d => (d.name, d.ns, d.shortName)) =
        [("A\\Foo", "A", "Foo"), ("Foo", "N", "Foo")]) ∧
    (Decl.builtin "\\\\A\\Foo" .classType).shortName = "Foo" := by
  intro base text marked
  obtain ⟨hsame, hcanonical, hmade⟩ := canonical_names_of_documents
  let typesOf (first parent interface second ns : String) : Node := .object [(some "types", .list [
    .object [(some "name", .str (some first)), (some "parent", .str (some parent)),
      (some "interfaces", .list [.str (some "I"), .str (some interface)])],
    .list [.str (some second), .str (some ns)]])]
  have htext : Node.parse? text = some (typesOf "A\\Foo" "Foo" "J" "Foo" "N") := by
    subst text typesOf
    cbv
  have hmarked : Node.parse? marked =
      some (typesOf "\\\\A\\Foo" "\\Foo" "\\J" "\\Foo" "\\N\\") := by
    subst marked typesOf
    cbv
  have hspell : Respells (typesOf "A\\Foo" "Foo" "J" "Foo" "N")
      (typesOf "\\\\A\\Foo" "\\Foo" "\\J" "\\Foo" "\\N\\") := by
    have hfirst : Alike RespellsField Record.fields
        (.object [(some "name", .str (some "A\\Foo")), (some "parent", .str (some "Foo")),
          (some "interfaces", .list [.str (some "I"), .str (some "J")])])
        (.object [(some "name", .str (some "\\\\A\\Foo")), (some "parent", .str (some "\\Foo")),
          (some "interfaces", .list [.str (some "I"), .str (some "\\J")])]) := by
      refine .object (.cons ⟨rfl, ?_⟩ (.cons ⟨rfl, ?_⟩ (.cons ⟨rfl, ?_⟩ .nil)))
      · rintro _ ⟨⟩
        exact .inr ⟨2, _, rfl, rfl⟩
      · rintro _ ⟨⟩
        exact .inr ⟨1, _, rfl, rfl⟩
      · rintro _ ⟨⟩
        exact .inr ⟨_, _, rfl, rfl, .cons (.inl rfl) (.cons (.inr ⟨1, _, rfl, rfl⟩) .nil)⟩
    have hsecond : Alike RespellsField Record.fields (.list [.str (some "Foo"), .str (some "N")])
        (.list [.str (some "\\Foo"), .str (some "\\N\\")]) :=
      .list rfl (.cons ⟨rfl, .inr ⟨1, _, rfl, rfl⟩⟩ (.cons ⟨rfl, .inr ⟨1, 1, _, rfl, rfl⟩⟩ .nil))
    refine .object (.cons ⟨rfl, ?_⟩ .nil)
    rintro _ ⟨⟩
    exact .inr ⟨_, _, rfl, rfl, .cons hfirst (.cons hsecond .nil)⟩
  have hread : Document.read? (typesOf "\\\\A\\Foo" "\\Foo" "\\J" "\\Foo" "\\N\\") = some {
      types := [{ name := "\\\\A\\Foo", parent := some "\\Foo", interfaces := ["I", "\\J"] },
        { name := "\\Foo", ns := some "\\N\\" }] } := by
    cbv
  refine ⟨hsame base text marked _ _ htext hmarked hspell, ?_, ?_⟩
  · cases hm : Model.ofJson marked base with
    | error cause =>
      simp only [Model.ofJson_eq, hmarked, Option.bind_some, hread] at hm
      exact absurd (by decide) (Model.exists_ofTypes_eq_error_iff.1 ⟨cause, hm⟩)
    | ok m =>
      obtain ⟨doc, hdoc, htypes, hall⟩ := hcanonical base marked m hm
      rw [hmarked, Option.bind_some, hread] at hdoc
      refine ⟨m, rfl, hall, ?_⟩
      rw [htypes, ← Option.some.inj hdoc]
      decide
  · rw [(hmade base { name := "\\\\A\\Foo" } .classType).2.2.2.1]
    decide

end Extract

end DocSite
