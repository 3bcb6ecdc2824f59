import Mathlib.Data.List.Forall2

namespace DocSite

section Lists

variable {α β γ : Type} {R : α → β → Prop} {l₁ l₂ : List α} {l : List β}

theorem exists_append_of_forall₂ (h : List.Forall₂ R (l₁ ++ l₂) l) :
    ∃ m₁ m₂, l = m₁ ++ m₂ ∧ List.Forall₂ R l₁ m₁ ∧ List.Forall₂ R l₂ m₂ := by
  induction l₁ generalizing l with
  | nil => exact ⟨[], l, rfl, .nil, h⟩
  | cons a l₁ ih =>
    obtain ⟨b, m, hab, hm, rfl⟩ := List.forall₂_cons_left_iff.1 h
    obtain ⟨m₁, m₂, rfl, h₁, h₂⟩ := ih hm
    exact ⟨b :: m₁, m₂, rfl, .cons hab h₁, h₂⟩

theorem exists_flatten_of_forall₂ {f : γ → List α} {items : List γ}
    (h : List.Forall₂ R (items.flatMap f) l) :
    ∃ parts, l = parts.flatten ∧ List.Forall₂ (fun c => List.Forall₂ R (f c)) items parts := by
  induction items generalizing l with
  | nil => exact ⟨[], List.forall₂_nil_left_iff.1 h, .nil⟩
  | cons c items ih =>
    obtain ⟨part, rest, rfl, hpart, hrest⟩ := exists_append_of_forall₂ h
    obtain ⟨parts, rfl, hparts⟩ := ih hrest
    exact ⟨part :: parts, rfl, .cons hpart hparts⟩

theorem exists_of_forall₂ {m : List α} (h : List.Forall₂ R m l) {b : β} (hb : b ∈ l) :
    ∃ a ∈ m, R a b := by
  induction h with
  | nil => simp at hb
  | cons hab _ ih =>
    rcases List.mem_cons.1 hb with rfl | hb
    · exact ⟨_, .head _, hab⟩
    · obtain ⟨a, ha, hR⟩ := ih hb
      exact ⟨a, .tail _ ha, hR⟩

theorem map_eq_of_forall₂ {m : List α} {f : α → γ} {g : β → γ} (h : List.Forall₂ R m l)
    (hR : ∀ a b, R a b → g b = f a) : l.map g = m.map f := by
  induction h with
  | nil => rfl
  | cons hab _ ih => rw [List.map_cons, List.map_cons, hR _ _ hab, ih]

theorem mapM_eq_ok_of_forall₂ {ε : Type} {f : α → Except ε β} {m : List α}
    (h : List.Forall₂ (fun a b => f a = .ok b) m l) : m.mapM f = .ok l := by
  induction h with
  | nil => rfl
  | cons hab _ ih =>
    rw [List.mapM_cons, hab, ih]
    rfl

end Lists

section Results

variable {α β γ δ : Type} {R S : α → β → Prop} {T : γ → δ → Prop} {x : Option α} {y : Option β}

theorem rel_refl {R : α → α → Prop} (x : Option α) (hR : ∀ a, R a a) : Option.Rel R x x := by
  cases x with
  | none => exact .none
  | some a => exact .some (hR a)

theorem rel_mono (h : Option.Rel R x y) (hRS : ∀ a b, R a b → S a b) : Option.Rel S x y := by
  cases h with
  | none => exact .none
  | some hab => exact .some (hRS _ _ hab)

theorem rel_bind {f : α → Option γ} {g : β → Option δ} (h : Option.Rel R x y)
    (hf : ∀ a b, R a b → Option.Rel T (f a) (g b)) : Option.Rel T (x.bind f) (y.bind g) := by
  cases h with
  | none => exact .none
  | some hab => exact hf _ _ hab

theorem rel_bind_same {f : α → Option γ} {g : α → Option δ}
    (hf : ∀ a, Option.Rel T (f a) (g a)) : Option.Rel T (x.bind f) (x.bind g) := by
  cases x with
  | none => exact .none
  | some a => exact hf a

theorem rel_mapM {f : α → Option γ} {g : β → Option δ} {l : List α} {m : List β}
    (h : List.Forall₂ R l m) (hf : ∀ a b, R a b → Option.Rel T (f a) (g b)) :
    Option.Rel (List.Forall₂ T) (l.mapM f) (m.mapM g) := by
  induction h with
  | nil => exact .some .nil
  | cons hab _ ih =>
    rw [List.mapM_cons, List.mapM_cons]
    exact rel_bind (hf _ _ hab) fun _ _ hcd => rel_bind ih fun _ _ hrest => .some (.cons hcd hrest)

end Results

end DocSite
