import DocSite.FileTree.Access
import DocSite.Proofs.FileTree.Walk

namespace DocSite.FileTree

variable {t t' t'' : FileTree} {P Q : Location → Prop} {loc l : Location} {e : Entry} {p q : Path}
variable {bytes : ByteArray}

/-- The second tree has the entries of the first and more. It has the same links, and the files
that are new or have other bytes stand where `P` holds. -/
structure Grows (t : FileTree) (P : Location → Prop) (t' : FileTree) : Prop where
  sorted : t'.Sorted
  within : Within t t'
  link : ∀ loc dest, t'.entryAt loc = some (.link dest) → t.entryAt loc = some (.link dest)
  file : ∀ loc bytes, t'.entryAt loc = some (.file bytes) →
    t.entryAt loc = some (.file bytes) ∨ P loc

namespace Grows

theorem refl (hs : t.Sorted) : Grows t P t :=
  ⟨hs, .refl t, fun _ _ h => h, fun _ _ h => .inl h⟩

theorem mono (h : Grows t P t') (hPQ : ∀ loc, P loc → Q loc) : Grows t Q t' :=
  ⟨h.sorted, h.within, h.link, fun loc bytes hb => (h.file loc bytes hb).imp_right (hPQ loc)⟩

/-- What the files of the first step satisfy may be stated anew after the second. -/
theorem append {R : Location → Prop} (h : Grows t P t') (h' : Grows t' Q t'')
    (hP : ∀ loc bytes, t'.entryAt loc = some (.file bytes) → P loc → R loc)
    (hQ : ∀ loc, Q loc → R loc) : Grows t R t'' where
  sorted := h'.sorted
  within := h.within.trans h'.within
  link loc dest hl := h.link loc dest (h'.link loc dest hl)
  file loc bytes hb := by
    rcases h'.file loc bytes hb with hold | hnew
    · exact (h.file loc bytes hold).imp_right (hP loc bytes hold)
    · exact .inr (hQ loc hnew)

theorem trans (h : Grows t P t') (h' : Grows t' P t'') : Grows t P t'' :=
  h.append h' (fun _ _ _ h => h) fun _ h => h

theorem isFileAt (h : Grows t P t') (he : t.entryAt loc = some (.file bytes)) :
    ∃ bytes, t'.entryAt loc = some (.file bytes) := by
  obtain ⟨e, he', halike⟩ := h.within.entry _ _ he
  cases e with
  | file bytes => exact ⟨bytes, he'⟩
  | dir | link => simp [Entry.Alike] at halike

theorem follow {last : Bool} (h : Grows t P t') (hp : t.follow last p = .ok loc)
    (he : t.entryAt loc = some e) : t'.follow last p = .ok loc :=
  follow_within_of_entryAt h.within hp he

theorem isFile (h : Grows t P t') (hfile : t.isFile p = true) : t'.isFile p = true := by
  obtain ⟨loc, bytes, hloc, he⟩ := isFile_iff.1 hfile
  obtain ⟨bytes', he'⟩ := h.isFileAt he
  exact isFile_iff.2 ⟨loc, bytes', h.follow hloc he, he'⟩

end Grows

/-- A place where an entry can be put: something stands there, or a directory above it does. -/
theorem put_sorted (hs : t.Sorted) {last : Bool} (hp : t.follow last p = .ok loc)
    (hdir : t.entryAt loc ≠ some .dir) : (t.put loc e).Sorted := by
  have hne : loc ≠ [] := by
    rintro rfl
    exact hdir rfl
  have hplace : t.isDirAt loc.dropLast = true ∧ ∀ name ∈ loc, IsName name := by
    cases he : t.entryAt loc with
    | none => exact follow_parent_of_missing hs.toWellFormed hp he
    | some f => exact ⟨hs.isDirAt_dropLast he, fun _ => hs.isName he⟩
  exact hs.put hne hplace.2 hplace.1 fun h => absurd (isDirAt_iff.1 h) hdir

theorem put_within (hne : loc ≠ []) (halike : ∀ f, t.entryAt loc = some f → f.Alike e) :
    Within t (t.put loc e) where
  current := rfl
  entry l f hf := by
    rw [entryAt_put hne]
    split
    · rename_i heq
      exact ⟨e, rfl, halike f (heq ▸ hf)⟩
    · exact ⟨f, hf, .refl f⟩

theorem putFile_grows (hs : t.Sorted) (hp : t.follow true p = .ok loc)
    (hdir : t.entryAt loc ≠ some .dir) : Grows t (· = loc) (t.put loc (.file bytes)) := by
  have hne : loc ≠ [] := by
    rintro rfl
    exact hdir rfl
  refine ⟨put_sorted hs hp hdir, put_within hne fun f hf => ?_, fun l dest hl => ?_,
    fun l b hb => ?_⟩
  · cases f with
    | dir => exact absurd hf hdir
    | file old => exact trivial
    | link dest => exact absurd hf (follow_ne_link hs.toWellFormed hp dest)
  · rw [entryAt_put hne] at hl
    split at hl
    · simp at hl
    · exact hl
  · rw [entryAt_put hne] at hb
    split at hb
    · exact .inr ‹_›
    · exact .inl hb

theorem putDir_grows (hs : t.Sorted) (hp : t.follow false p = .ok loc)
    (hnone : t.entryAt loc = none) : Grows t P (t.put loc .dir) := by
  have hne : loc ≠ [] := by
    rintro rfl
    simp at hnone
  refine ⟨put_sorted hs hp (by simp [hnone]), put_within hne (by simp [hnone]),
    fun l dest hl => ?_, fun l b hb => ?_⟩
  · rw [entryAt_put hne] at hl
    split at hl
    · simp at hl
    · exact hl
  · rw [entryAt_put hne] at hb
    split at hb
    · simp at hb
    · exact .inl hb

theorem write_eq_ok (h : t.write p bytes = .ok t') : ∃ loc, t.follow true p = .ok loc ∧
    t.entryAt loc ≠ some .dir ∧ t' = t.put loc (.file bytes) := by
  unfold write at h
  split at h
  · dsimp only at h
    split at h
    · cases hf : t.follow false (withoutSeparators p) <;> simp [hf, bind, Except.bind] at h
    · simp at h
  · obtain ⟨loc, hloc, h⟩ := bind_eq_ok.1 h
    unfold writeAt at h
    split at h
    · simp at h
    · rename_i hdir
      exact ⟨loc, hloc, hdir, (Except.ok.inj h).symm⟩

theorem copyFile_eq_ok (h : t.copyFile p q = .ok t') : ∃ loc bytes, t.follow true q = .ok loc ∧
    t.entryAt loc ≠ some .dir ∧ t' = t.put loc (.file bytes) := by
  unfold copyFile at h
  obtain ⟨⟨source, _⟩, -, h⟩ := bind_eq_ok.1 h
  obtain ⟨bytes, -, h⟩ := bind_eq_ok.1 h
  obtain ⟨t₁, hwrite, h⟩ := bind_eq_ok.1 h
  obtain ⟨written, hwritten, h⟩ := bind_eq_ok.1 h
  obtain ⟨loc, hloc, hdir, rfl⟩ := write_eq_ok hwrite
  obtain rfl := eq_of_eq_ok hwritten hloc
  split at h
  · rename_i heq
    exact ⟨written, .empty, hloc, hdir, by rw [heq, Except.ok.inj h]⟩
  · exact ⟨written, bytes, hloc, hdir, (Except.ok.inj h).symm⟩

/-- A file that was put where a path leads is found by that path. -/
theorem follow_putFile (hs : t.Sorted) (hp : t.follow true p = .ok loc)
    (hdir : t.entryAt loc ≠ some .dir) : (t.put loc (.file bytes)).follow true p = .ok loc ∧
      (t.put loc (.file bytes)).entryAt loc = some (.file bytes) := by
  have hne : loc ≠ [] := by
    rintro rfl
    exact hdir rfl
  have he : (t.put loc (.file bytes)).entryAt loc = some (.file bytes) := by
    rw [entryAt_put hne, if_pos rfl]
  -- what stands at the end of the path now is a file, not a link that leads on
  refine ⟨follow_within (putFile_grows hs hp hdir).within hp fun dest hdest => ?_, he⟩
  simp [he] at hdest

theorem createDir_grows (hs : t.Sorted) (h : t.createDir p = .ok t') : Grows t P t' := by
  unfold createDir at h
  obtain ⟨loc, hloc, h⟩ := bind_eq_ok.1 h
  split at h
  · simp at h
  · rename_i hnone
    obtain rfl := Except.ok.inj h
    exact putDir_grows hs hloc hnone

theorem createDirs_grows (hs : t.Sorted) (n : Nat) : Grows t P (t.createDirs p n).1 := by
  induction n generalizing t p with
  | zero => exact .refl hs
  | succ n ih =>
    unfold createDirs
    split
    · exact .refl hs
    rename_i q _
    split
    · rename_i t' hcreate
      exact createDir_grows hs hcreate
    · -- the parents come first; those that were created stay if the directory then fails
      have habove : Grows t P (t.createDirs q n).1 := ih hs
      split
      · rename_i t' cause heq
        rwa [heq] at habove
      · rename_i t' heq
        rw [heq] at habove
        split
        · rename_i t'' hcreate
          exact habove.trans (createDir_grows habove.sorted hcreate)
        · exact habove
    · exact .refl hs

theorem createDirAll_grows (hs : t.Sorted) : Grows t P (t.createDirAll p).1 :=
  createDirs_grows hs _

end DocSite.FileTree
