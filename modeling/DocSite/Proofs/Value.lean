import DocSite.Proofs.Dict
import DocSite.Value
import Mathlib.Data.List.Lex

namespace DocSite.Value

open Std

variable {v : Value} {items : List Value} {fields : List (String × Value)} {s : String} {i : Nat}

/-- Induction over values, with the claim for each item of a list and each value of an object. -/
@[elab_as_elim]
theorem induct {motive : Value → Prop} (null : motive .null) (bool : ∀ b, motive (.bool b))
    (int : ∀ n, motive (.int n)) (float : ∀ x, motive (.float x)) (str : ∀ s, motive (.str s))
    (list : ∀ items, (∀ v ∈ items, motive v) → motive (.list items))
    (object : ∀ fields, (∀ e ∈ fields, motive e.2) → motive (.object fields)) (v : Value) :
    motive v :=
  @Value.rec motive (fun items => ∀ v ∈ items, motive v)
    (fun fields => ∀ e ∈ fields, motive e.2) (fun e => motive e.2)
    null bool int float str list object nofun
    (fun _ _ hv hitems => List.forall_mem_cons.2 ⟨hv, hitems⟩) nofun
    (fun _ _ he hfields => List.forall_mem_cons.2 ⟨he, hfields⟩) (fun _ _ hv => hv) v

inductive Step where
  | key (name : String)
  | index (i : Nat)

def Step.text : Step → String
  | key name => "." ++ name
  | index i => "[" ++ toString i ++ "]"

def placeText (field : String) (place : List Step) : String :=
  place.foldl (fun field step => field ++ step.text) field

/-- A value holds a text at a place. -/
inductive Holds : Value → List Step → String → Prop
  | here {s : String} : Holds (.str s) [] s
  | item {items : List Value} {i : Nat} {v : Value} {place : List Step} {s : String} :
      items[i]? = some v → Holds v place s → Holds (.list items) (.index i :: place) s
  | field {fields : List (String × Value)} {name : String} {v : Value} {place : List Step}
      {s : String} : (name, v) ∈ fields → Holds v place s →
      Holds (.object fields) (.key name :: place) s

/-- Items of a list come in the order of their indices and fields of an object in that of their
keys. -/
inductive Step.Before : Step → Step → Prop
  | index {i j : Nat} : i < j → Before (index i) (index j)
  | key {name other : String} : Text.compareText name other = .lt → Before (key name) (key other)

/-- A place comes before another: the first step in which they differ does. -/
abbrev Earlier : List Step → List Step → Prop := List.Lex Step.Before

/-- The keys of all objects inside a value ascend. -/
inductive Ordered : Value → Prop
  | null : Ordered .null
  | bool {b : Bool} : Ordered (.bool b)
  | int {n : Int} : Ordered (.int n)
  | float {x : Float} : Ordered (.float x)
  | str {s : String} : Ordered (.str s)
  | list {items : List Value} : (∀ v ∈ items, Ordered v) → Ordered (.list items)
  | object {fields : Dict Value} : fields.Ascending → (∀ e ∈ fields, Ordered e.2) →
      Ordered (.object fields)

/-- An object that is made of entries in any order has its keys in order. -/
theorem ordered_ofList {fields : List (String × Value)} (h : ∀ e ∈ fields, Ordered e.2) :
    Ordered (.object (Dict.ofList fields)) := by
  obtain ⟨hascending, hmem⟩ := Dict.ascending_ofList fields
  exact .object hascending fun e he => h e (hmem e he)

/-- The value with other texts in the same places. -/
def mapTexts (f : String → String) : Value → Value
  | .str s => .str (f s)
  | .list items => .list (items.map fun v => mapTexts f v)
  | .object fields => .object (fields.map fun e => (e.1, mapTexts f e.2))
  | .null => .null
  | .bool b => .bool b
  | .int n => .int n
  | .float x => .float x
decreasing_by
  · rename_i hv
    have hitem := List.sizeOf_lt_of_mem hv
    rw [list.sizeOf_spec]
    omega
  · rename_i he
    have hvalue : sizeOf e.2 < sizeOf e := by
      cases e
      simp only [Prod.mk.sizeOf_spec]
      omega
    have hfield := List.sizeOf_lt_of_mem he
    rw [object.sizeOf_spec]
    omega

def behind (step : Step) (found : List Step × String) : List Step × String :=
  (step :: found.1, found.2)

mutual

/-- The texts of a value with their places, in the order in which a walk meets them. -/
def texts : Value → List (List Step × String)
  | .str s => [([], s)]
  | .list items => itemTexts 0 items
  | .object fields => fieldTexts fields
  | .null | .bool _ | .int _ | .float _ => []

def itemTexts (i : Nat) : List Value → List (List Step × String)
  | [] => []
  | v :: items => (texts v).map (behind (.index i)) ++ itemTexts (i + 1) items

def fieldTexts : List (String × Value) → List (List Step × String)
  | [] => []
  | (name, v) :: fields => (texts v).map (behind (.key name)) ++ fieldTexts fields

end

variable {place : List Step}

theorem mem_itemTexts_iff : (place, s) ∈ itemTexts i items ↔ ∃ j v rest,
    items[j]? = some v ∧ place = .index (i + j) :: rest ∧ (rest, s) ∈ v.texts := by
  induction items generalizing i with
  | nil => simp [itemTexts]
  | cons v items ih =>
    rw [itemTexts, List.mem_append, List.mem_map, ih]
    constructor
    · rintro (⟨⟨rest, s⟩, hmem, hfound⟩ | ⟨j, w, rest, hw, rfl, hmem⟩)
      · obtain ⟨rfl, rfl⟩ := Prod.mk.inj hfound
        exact ⟨0, v, rest, rfl, rfl, hmem⟩
      · exact ⟨j + 1, w, rest, hw, by rw [Nat.add_assoc, Nat.add_comm 1], hmem⟩
    · rintro ⟨j, w, rest, hw, rfl, hmem⟩
      cases j with
      | zero =>
        obtain rfl := Option.some.inj hw
        exact .inl ⟨(rest, s), hmem, rfl⟩
      | succ j => exact .inr ⟨j, w, rest, hw, by rw [Nat.add_assoc, Nat.add_comm 1], hmem⟩

theorem mem_fieldTexts_iff : (place, s) ∈ fieldTexts fields ↔ ∃ name v rest,
    (name, v) ∈ fields ∧ place = .key name :: rest ∧ (rest, s) ∈ v.texts := by
  induction fields with
  | nil => simp [fieldTexts]
  | cons e fields ih =>
    obtain ⟨name, v⟩ := e
    rw [fieldTexts, List.mem_append, List.mem_map, ih]
    constructor
    · rintro (⟨⟨rest, s⟩, hmem, hfound⟩ | ⟨other, w, rest, hw, rfl, hmem⟩)
      · obtain ⟨rfl, rfl⟩ := Prod.mk.inj hfound
        exact ⟨name, v, rest, .head _, rfl, hmem⟩
      · exact ⟨other, w, rest, .tail _ hw, rfl, hmem⟩
    · rintro ⟨other, w, rest, hw, rfl, hmem⟩
      rcases List.mem_cons.1 hw with hsame | hw
      · obtain ⟨rfl, rfl⟩ := Prod.mk.inj hsame
        exact .inl ⟨(rest, s), hmem, rfl⟩
      · exact .inr ⟨other, w, rest, hw, rfl, hmem⟩

/-- A walk meets just the texts that the value holds. -/
theorem mem_texts_iff : (place, s) ∈ v.texts ↔ v.Holds place s := by
  induction v using induct generalizing place with
  | null | bool | int | float => exact ⟨nofun, nofun⟩
  | str t =>
    rw [texts, List.mem_singleton]
    constructor
    · intro h
      obtain ⟨rfl, rfl⟩ := Prod.mk.inj h
      exact .here
    · rintro ⟨⟩
      rfl
  | list items ih =>
    rw [texts, mem_itemTexts_iff]
    constructor
    · rintro ⟨j, w, rest, hw, rfl, hmem⟩
      rw [Nat.zero_add]
      exact .item hw ((ih w (List.mem_of_getElem? hw)).1 hmem)
    · intro h
      cases h with
      | item hw hrest =>
        exact ⟨_, _, _, hw, by rw [Nat.zero_add], (ih _ (List.mem_of_getElem? hw)).2 hrest⟩
  | object fields ih =>
    rw [texts, mem_fieldTexts_iff]
    constructor
    · rintro ⟨name, w, rest, hw, rfl, hmem⟩
      exact .field hw ((ih _ hw).1 hmem)
    · intro h
      cases h with
      | field hw hrest => exact ⟨_, _, _, hw, rfl, (ih _ hw).2 hrest⟩

theorem pairwise_behind {step : Step} {found : List (List Step × String)}
    (h : found.Pairwise fun a b => Earlier a.1 b.1) :
    (found.map (behind step)).Pairwise fun a b => Earlier a.1 b.1 :=
  List.pairwise_map.2 (h.imp .cons)

theorem pairwise_itemTexts
    (h : ∀ v ∈ items, v.texts.Pairwise fun a b => Earlier a.1 b.1) (i : Nat) :
    (itemTexts i items).Pairwise fun a b => Earlier a.1 b.1 := by
  induction items generalizing i with
  | nil => exact .nil
  | cons v items ih =>
    obtain ⟨hv, hitems⟩ := List.forall_mem_cons.1 h
    refine List.pairwise_append.2 ⟨pairwise_behind hv, ih hitems (i + 1), fun a ha b hb => ?_⟩
    obtain ⟨found, -, rfl⟩ := List.mem_map.1 ha
    obtain ⟨j, w, rest, -, hplace, -⟩ := mem_itemTexts_iff.1 hb
    rw [hplace]
    exact .rel (.index (by omega))

theorem pairwise_fieldTexts (hkeys : Dict.Ascending fields)
    (h : ∀ e ∈ fields, e.2.texts.Pairwise fun a b => Earlier a.1 b.1) :
    (fieldTexts fields).Pairwise fun a b => Earlier a.1 b.1 := by
  induction fields with
  | nil => exact .nil
  | cons e fields ih =>
    obtain ⟨name, v⟩ := e
    obtain ⟨hv, hfields⟩ := List.forall_mem_cons.1 h
    obtain ⟨hfirst, hkeys⟩ := List.pairwise_cons.1 hkeys
    refine List.pairwise_append.2 ⟨pairwise_behind hv, ih hkeys hfields, fun a ha b hb => ?_⟩
    obtain ⟨found, -, rfl⟩ := List.mem_map.1 ha
    obtain ⟨other, w, rest, hw, hplace, -⟩ := mem_fieldTexts_iff.1 hb
    rw [hplace]
    exact .rel (.key (hfirst _ hw))

/-- A walk over a value with keys in order meets its texts in the order of their places. -/
theorem Ordered.pairwise_texts (h : v.Ordered) :
    v.texts.Pairwise fun a b => Earlier a.1 b.1 := by
  induction h with
  | null | bool | int | float => exact .nil
  | str => exact List.pairwise_singleton _ _
  | list _ ih => exact pairwise_itemTexts ih 0
  | object hkeys _ ih => exact pairwise_fieldTexts hkeys ih

instance : Asymm Step.Before where
  asymm step other hstep := by
    cases hstep with
    | index hij =>
      rintro ⟨hji⟩
      exact Nat.lt_asymm hij hji
    | key hlt =>
      intro h
      cases h with
      | key hgt => simp [OrientedCmp.gt_of_lt hlt] at hgt

end DocSite.Value
