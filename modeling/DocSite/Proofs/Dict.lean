import DocSite.Dict
import DocSite.Proofs.Text.Order

namespace DocSite

namespace Dict

open Std

variable {α : Type} {k : String} {v : α} {d : Dict α} {e : String × α}

theorem find?_cons (k j : String) (v : α) (d : Dict α) :
    find? k ((j, v) :: d) = if k = j then some v else find? k d := by
  rw [find?, List.lookup_cons]
  by_cases h : k = j
  · simp [h]
  · simp [h, beq_false_of_ne h, find?]

theorem find?_insert (k j : String) (v : α) (d : Dict α) :
    find? k (insert j v d) = if k = j then some v else find? k d := by
  induction d with
  | nil => rw [insert, find?_cons]
  | cons e d ih =>
    obtain ⟨i, w⟩ := e
    rw [insert]
    split
    · rw [find?_cons]
    · rename_i heq
      obtain rfl := Std.LawfulEqCmp.eq_of_compare heq
      rw [find?_cons, find?_cons]
      split <;> rfl
    · rename_i hgt
      have hne : i ≠ j := by
        rintro rfl
        have hself : Text.compareText i i = .eq := Std.ReflCmp.compare_self
        simp [hself] at hgt
      rw [find?_cons, ih, find?_cons]
      by_cases hi : k = i
      · simp [hi, hne]
      · simp [hi]

/-- A key of entries that all have one value has it in their dictionary. -/
theorem find?_ofList_of_mem {entries : List (String × α)} (hv : ∀ e ∈ entries, e.2 = v)
    (hk : k ∈ entries.map (·.1)) : find? k (ofList entries) = some v := by
  have hfold : ∀ d : Dict α, k ∈ entries.map (·.1) ∨ find? k d = some v →
      find? k (entries.foldl (fun d e => insert e.1 e.2 d) d) = some v := by
    clear hk
    induction entries with
    | nil => simp
    | cons e entries ih =>
      intro d hd
      refine ih (fun e he => hv e (.tail _ he)) _ ?_
      rw [find?_insert, hv e (.head _)]
      by_cases he : k = e.1
      · simp [he]
      · simpa [he] using hd
  exact hfold [] (.inl hk)

def Ascending (d : Dict α) : Prop := d.Pairwise fun a b => Text.compareText a.1 b.1 = .lt

theorem mem_insert (he : e ∈ insert k v d) : e = (k, v) ∨ e ∈ d := by
  induction d with
  | nil => simpa [insert] using he
  | cons f d ih =>
    rw [insert] at he
    split at he
    · simpa using he
    · rcases List.mem_cons.1 he with rfl | he
      · exact .inl rfl
      · exact .inr (.tail _ he)
    · rcases List.mem_cons.1 he with rfl | he
      · exact .inr (.head _)
      · exact (ih he).imp_right (.tail _)

theorem Ascending.insert (h : d.Ascending) (k : String) (v : α) : (insert k v d).Ascending := by
  induction d with
  | nil => exact List.pairwise_singleton _ _
  | cons f d ih =>
    obtain ⟨hf, hrest⟩ := List.pairwise_cons.1 h
    rw [Dict.insert]
    split
    · rename_i hlt
      refine List.pairwise_cons.2 ⟨fun g hg => ?_, h⟩
      rcases List.mem_cons.1 hg with rfl | hg
      · exact hlt
      · exact TransCmp.lt_trans hlt (hf g hg)
    · rename_i heq
      obtain rfl := LawfulEqCmp.eq_of_compare heq
      exact List.pairwise_cons.2 ⟨hf, hrest⟩
    · rename_i hgt
      refine List.pairwise_cons.2 ⟨fun g hg => ?_, ih hrest⟩
      rcases mem_insert hg with rfl | hg
      · exact OrientedCmp.lt_of_gt hgt
      · exact hf g hg

/-- The dictionary of entries is in order and holds no other entries. -/
theorem ascending_ofList (entries : List (String × α)) :
    (ofList entries).Ascending ∧ ∀ e ∈ ofList entries, e ∈ entries := by
  have hfold : ∀ d : Dict α, d.Ascending →
      (entries.foldl (fun d e => insert e.1 e.2 d) d).Ascending ∧
        ∀ e ∈ entries.foldl (fun d e => insert e.1 e.2 d) d, e ∈ d ∨ e ∈ entries := by
    induction entries with
    | nil => exact fun d hd => ⟨hd, fun e he => .inl he⟩
    | cons f entries ih =>
      intro d hd
      obtain ⟨hascending, hmem⟩ := ih _ (hd.insert f.1 f.2)
      refine ⟨hascending, fun e he => ?_⟩
      rcases hmem e he with he | he
      · exact (mem_insert he).elim (fun h => .inr (h ▸ List.mem_cons_self)) .inl
      · exact .inr (.tail _ he)
  obtain ⟨hascending, hmem⟩ := hfold [] List.Pairwise.nil
  exact ⟨hascending, fun e he => (hmem e he).resolve_left List.not_mem_nil⟩

end Dict

end DocSite
