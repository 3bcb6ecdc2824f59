import DocSite.Json.Record
import DocSite.Proofs.InStep

namespace DocSite

namespace Json.Node

variable {rel : String → Node → Node → Prop} {names : List String} {node node' : Node}

def FieldRel (rel : String → Node → Node → Prop) (f g : String × Node) : Prop :=
  f.1 = g.1 ∧ rel f.1 f.2 g.2

/-- Records whose values are related field by field: the same node, objects with the same names in
the same order, or lists of the same length. -/
inductive Alike (rel : String → Node → Node → Prop) (names : List String) : Node → Node → Prop
  | same (node : Node) : Alike rel names node node
  | object {fields fields' : List (Option String × Node)}
      (h : List.Forall₂ (fun f g => f.1 = g.1 ∧ ∀ name ∈ f.1, rel name f.2 g.2) fields fields') :
      Alike rel names (.object fields) (.object fields')
  | list {items items' : List Node} (hlength : items.length = items'.length)
      (h : List.Forall₂ (FieldRel rel) (names.zip items) (names.zip items')) :
      Alike rel names (.list items) (.list items')

inductive Correspond (rel : String → Node → Node → Prop) :
    List String → List (Option Node) → List (Option Node) → Prop
  | nil : Correspond rel [] [] []
  | cons {name : String} {names : List String} {v v' : Option Node} {vs vs' : List (Option Node)}
      (h : Option.Rel (rel name) v v') (hrest : Correspond rel names vs vs') :
      Correspond rel (name :: names) (v :: vs) (v' :: vs')

theorem valuesOf_rel (name : String) {fields fields' : List (String × Node)}
    (h : List.Forall₂ (FieldRel rel) fields fields') :
    List.Forall₂ (rel name) (valuesOf name fields) (valuesOf name fields') := by
  induction h with
  | nil => exact .nil
  | @cons f g _ _ hfg _ ih =>
    obtain ⟨hname, hvalue⟩ := hfg
    by_cases hf : f.1 = name
    · subst hf
      simp only [valuesOf, List.filterMap_cons, ← hname, if_true] at ih ⊢
      exact .cons hvalue ih
    · simpa only [valuesOf, List.filterMap_cons, ← hname, if_neg hf] using ih

theorem record?_object_rel {fields fields' : List (Option String × Node)}
    (h : List.Forall₂ (fun f g => f.1 = g.1 ∧ ∀ name ∈ f.1, rel name f.2 g.2) fields fields') :
    Option.Rel (Correspond rel names) (record? names (.object fields))
      (record? names (.object fields')) := by
  refine rel_bind (R := List.Forall₂ (FieldRel rel)) (rel_mapM h ?_) fun named named' hnamed => ?_
  · rintro ⟨key, v⟩ ⟨key', v'⟩ ⟨rfl, hvalue⟩
    cases key with
    | none => exact .none
    | some name => exact .some ⟨rfl, hvalue name rfl⟩
  · induction names with
    | nil => exact .some .nil
    | cons name names ih =>
      rw [List.mapM_cons, List.mapM_cons]
      refine rel_bind (R := Option.Rel (rel name)) ?_ fun v v' hv =>
        rel_bind ih fun _ _ hrest => .some (.cons hv hrest)
      have hvalues := valuesOf_rel name hnamed
      generalize valuesOf name named = values at hvalues ⊢
      generalize valuesOf name named' = values' at hvalues ⊢
      cases hvalues with
      | nil => exact .some .none
      | cons hv hrest =>
        cases hrest with
        | nil => exact .some (.some hv)
        | cons => exact .none

theorem correspond_list {items items' : List Node} (hle : items.length ≤ names.length)
    (hlength : items.length = items'.length)
    (h : List.Forall₂ (FieldRel rel) (names.zip items) (names.zip items')) :
    Correspond rel names (items.map some ++ List.replicate (names.length - items.length) none)
      (items'.map some ++ List.replicate (names.length - items'.length) none) := by
  induction names generalizing items items' with
  | nil =>
    obtain rfl := List.eq_nil_of_length_eq_zero (Nat.le_zero.1 hle)
    obtain rfl := List.eq_nil_of_length_eq_zero hlength.symm
    exact .nil
  | cons name names ih =>
    cases items with
    | nil =>
      obtain rfl := List.eq_nil_of_length_eq_zero hlength.symm
      have hrest := @ih [] [] (Nat.zero_le _) rfl (by simp)
      simpa [List.replicate_succ] using Correspond.cons .none hrest
    | cons v items =>
      cases items' with
      | nil => simp at hlength
      | cons v' items' =>
        rw [List.zip_cons_cons, List.zip_cons_cons, List.forall₂_cons] at h
        have hrest := ih (Nat.le_of_succ_le_succ hle) (Nat.succ.inj hlength) h.2
        simpa using Correspond.cons (.some h.1.2) hrest

theorem record?_list_rel {items items' : List Node} (hlength : items.length = items'.length)
    (h : List.Forall₂ (FieldRel rel) (names.zip items) (names.zip items')) :
    Option.Rel (Correspond rel names) (record? names (.list items))
      (record? names (.list items')) := by
  simp only [record?]
  by_cases hle : items.length ≤ names.length
  · rw [if_pos hle, if_pos (hlength ▸ hle)]
    exact .some (correspond_list hle hlength h)
  · rw [if_neg hle, if_neg (hlength ▸ hle)]
    exact .none

theorem record?_rel (hrel : ∀ name v, rel name v v) (h : Alike rel names node node') :
    Option.Rel (Correspond rel names) (record? names node) (record? names node') := by
  cases h with
  | object h => exact record?_object_rel h
  | list hlength h => exact record?_list_rel hlength h
  | same =>
    cases node with
    | object fields =>
      exact record?_object_rel (List.forall₂_same.2 fun f _ => ⟨rfl, fun name _ => hrel name f.2⟩)
    | list items =>
      exact record?_list_rel rfl (List.forall₂_same.2 fun f _ => ⟨rfl, hrel f.1 f.2⟩)
    | _ => exact .none

end Json.Node

end DocSite
