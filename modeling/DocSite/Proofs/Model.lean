import DocSite.Model
import DocSite.Proofs.Except

namespace DocSite.Model

variable {t : FileTree} {path root : Path} {cause : ModelError} {seen names : List String}
variable {name : String} {types : List Decl}

/-- The first name that is met again: the names before it are distinct and new. -/
theorem firstRepeat?_eq_some_iff : firstRepeat? seen names = some name ↔
    ∃ before after, names = before ++ name :: after ∧ before.Nodup ∧ (∀ n ∈ before, n ∉ seen) ∧
      (name ∈ seen ∨ name ∈ before) := by
  induction names generalizing seen with
  | nil => simp [firstRepeat?]
  | cons first rest ih =>
    rw [firstRepeat?]
    by_cases hfirst : first ∈ seen
    · rw [if_pos hfirst, Option.some.injEq]
      constructor
      · rintro rfl
        exact ⟨[], rest, rfl, List.nodup_nil, by simp, .inl hfirst⟩
      · rintro ⟨before, after, heq, -, hnew, -⟩
        cases before with
        | nil => exact (List.cons.inj heq).1
        | cons n before =>
          obtain ⟨rfl, -⟩ := List.cons.inj heq
          exact absurd hfirst (hnew _ (.head _))
    · rw [if_neg hfirst, ih]
      constructor
      · rintro ⟨before, after, rfl, hnodup, hnew, hmet⟩
        have hout : first ∉ before := fun hin => hnew first hin (.head _)
        refine ⟨first :: before, after, rfl, List.nodup_cons.2 ⟨hout, hnodup⟩, ?_, ?_⟩
        · exact List.forall_mem_cons.2 ⟨hfirst, fun n hn hin => hnew n hn (.tail _ hin)⟩
        · simp only [List.mem_cons] at hmet ⊢
          grind
      · rintro ⟨before, after, heq, hnodup, hnew, hmet⟩
        cases before with
        | nil =>
          obtain ⟨rfl, -⟩ := List.cons.inj heq
          exact absurd (hmet.resolve_right (by simp)) hfirst
        | cons n before =>
          obtain ⟨rfl, rfl⟩ := List.cons.inj heq
          obtain ⟨hout, hnodup⟩ := List.nodup_cons.1 hnodup
          refine ⟨before, after, rfl, hnodup, fun m hm hin => ?_, ?_⟩
          · rcases List.mem_cons.1 hin with rfl | hin
            · exact hout hm
            · exact hnew m (.tail _ hm) hin
          · simp only [List.mem_cons] at hmet ⊢
            grind

theorem ofTypes_eq_error_iff : ofTypes root types = .error cause ↔ ∃ name before after,
    cause = .duplicate name ∧ types.map Decl.name = before ++ name :: after ∧ before.Nodup ∧
      name ∈ before := by
  have hrepeat : ofTypes root types = .error cause ↔
      ∃ name, cause = .duplicate name ∧ firstRepeat? [] (types.map Decl.name) = some name := by
    unfold ofTypes
    split <;> rename_i heq <;> simp [heq, eq_comm]
  simp [hrepeat, firstRepeat?_eq_some_iff]

theorem ofTypes_eq_ok {m : Model} (h : ofTypes root types = .ok m) :
    m.root = root ∧ m.types = types := by
  unfold ofTypes at h
  split at h
  · simp at h
  · rw [← Except.ok.inj h]
    exact ⟨rfl, rfl⟩

/-- Types are refused just if two of them have the same name. -/
theorem exists_ofTypes_eq_error_iff :
    (∃ cause, ofTypes root types = .error cause) ↔ ¬(types.map Decl.name).Nodup := by
  constructor
  · rintro ⟨cause, h⟩ hnodup
    obtain ⟨name, before, after, -, hnames, -, hmet⟩ := ofTypes_eq_error_iff.1 h
    rw [hnames, List.nodup_append] at hnodup
    exact hnodup.2.2 name hmet name (.head _) rfl
  · intro hrepeat
    cases h : ofTypes root types with
    | error cause => exact ⟨cause, rfl⟩
    | ok m => exact absurd ((ofTypes_eq_ok h).2 ▸ m.names_nodup) hrepeat

/-- The model of a text is made from the document that the text holds. -/
theorem ofJson_eq (text : String) (base : Path) : ofJson text base =
    match (Json.Node.parse? text).bind Extract.Document.read? with
    | none => .error .malformed
    | some doc => ofTypes (doc.rootAt base) (doc.decls base) := by
  unfold ofJson Extract.document?
  cases Json.Node.parse? text with
  | none => rfl
  | some node => cases hread : Extract.Document.read? node <;> simp [hread]

/-- Why the file at a path holds no model. -/
inductive Unfit (t : FileTree) (path : Path) : ModelError → Prop
  | missing (hpath : t.hasPath path = false) : Unfit t path (.notFound path)
  | unreadable {cause : FileError} (hpath : t.hasPath path = true)
      (hread : t.readText path = .error cause) : Unfit t path (.unreadable cause)
  | malformed {text : String} (hpath : t.hasPath path = true) (hread : t.readText path = .ok text)
      (hdocument : (Json.Node.parse? text).bind
        (Extract.document? (path.parent.getD ⟨"."⟩)) = none) : Unfit t path .malformed
  | duplicate {text name : String} {root : Path} {types : List Decl} {before after : List String}
      (hpath : t.hasPath path = true) (hread : t.readText path = .ok text)
      (hdocument : (Json.Node.parse? text).bind
        (Extract.document? (path.parent.getD ⟨"."⟩)) = some (root, types))
      (hnames : types.map Decl.name = before ++ name :: after) (hnodup : before.Nodup)
      (hmet : name ∈ before) : Unfit t path (.duplicate name)

/-- A file is refused as a model just if it is unfit, and for that cause. -/
theorem load_eq_error_iff : load t path = .error cause ↔ Unfit t path cause := by
  constructor
  · intro h
    unfold load at h
    split at h
    · rename_i hpath
      exact Except.error.inj h ▸ .missing (by simpa using hpath)
    rename_i hpath
    have hpath : t.hasPath path = true := by simpa using hpath
    split at h
    · rename_i hread
      exact Except.error.inj h ▸ .unreadable hpath hread
    rename_i hread
    unfold ofJson at h
    split at h
    · rename_i hdocument
      exact Except.error.inj h ▸ .malformed hpath hread hdocument
    · rename_i hdocument
      obtain ⟨name, before, after, rfl, hnames, hnodup, hmet⟩ := ofTypes_eq_error_iff.1 h
      exact .duplicate hpath hread hdocument hnames hnodup hmet
  · intro h
    cases h with
    | missing hpath => simp [load, hpath]
    | unreadable hpath hread => simp [load, hpath, hread]
    | malformed hpath hread hdocument => simp [load, hpath, hread, ofJson, hdocument]
    | duplicate hpath hread hdocument hnames hnodup hmet =>
      simp only [load, hpath, hread, ofJson, hdocument]
      exact ofTypes_eq_error_iff.2 ⟨_, _, _, rfl, hnames, hnodup, hmet⟩

end DocSite.Model
