import DocSite.Proofs.RawPath
import DocSite.Proofs.Site.PageName
import Mathlib.Data.List.Basic

namespace DocSite

variable {a b : String} {l : Links} {kind : PageKind}

def isWordByte (b : UInt8) : Bool := isWordChar (Char.ofUInt8 b)

def byteToken (b : UInt8) : Char := if isWordByte b then Char.ofUInt8 b else '.'

/-- Two names with as many bytes, equal at each position unless neither has a word character. -/
def Collide (a b : String) : Prop :=
  (bytesOf a).length = (bytesOf b).length ∧
    ∀ (i : Nat) (ha : i < (bytesOf a).length) (hb : i < (bytesOf b).length),
      (bytesOf a)[i] = (bytesOf b)[i] ∨
        (isWordByte (bytesOf a)[i] = false ∧ isWordByte (bytesOf b)[i] = false)

instance (a b : String) : Decidable (Collide a b) := inferInstanceAs (Decidable (_ ∧ _))

theorem toNat_lt_of_isWordChar {c : Char} (h : isWordChar c = true) : c.toNat < 128 := by
  rw [isWordChar, Bool.or_eq_true, beq_iff_eq] at h
  rcases h with h | rfl
  · -- letters and digits by their ranges
    have hranges : (decide (65 ≤ c.val ∧ c.val ≤ 90) ||
        decide (97 ≤ c.val) && decide (c.val ≤ 122) ||
        decide (48 ≤ c.val) && decide (c.val ≤ 57)) = true := h
    simp only [Bool.or_eq_true, Bool.and_eq_true, decide_eq_true_eq, UInt32.le_iff_toNat_le,
      UInt32.reduceToNat, Char.toNat_val] at hranges
    omega
  · decide

theorem isWordByte_of_le {b : UInt8} (h : 128 ≤ b.toNat) : isWordByte b = false := by
  rw [← Bool.not_eq_true]
  intro hword
  have hlt : (Char.ofUInt8 b).toNat < 128 := toNat_lt_of_isWordChar hword
  rw [toNat_ofUInt8] at hlt
  omega

theorem map_byteToken_utf8EncodeChar (c : Char) : (String.utf8EncodeChar c).map byteToken =
    if isWordChar c then [c] else List.replicate c.utf8Size '.' := by
  by_cases hc : c.toNat < 128
  · have hsize : c.utf8Size = 1 := Char.utf8Size_eq_one_iff.2 (Nat.le_of_lt_succ hc)
    rw [String.utf8EncodeChar_eq_singleton hsize, hsize, List.map_singleton, byteToken,
      isWordByte, ofUInt8_toUInt8 hc]
    split <;> rfl
  · have hword : ¬isWordChar c = true := fun h => hc (toNat_lt_of_isWordChar h)
    rw [if_neg hword, List.eq_replicate_iff, List.length_map, String.length_utf8EncodeChar]
    refine ⟨rfl, fun x hx => ?_⟩
    obtain ⟨b, hb, rfl⟩ := List.mem_map.1 hx
    rw [byteToken, isWordByte_of_le (le_of_mem_utf8EncodeChar (Nat.not_lt.1 hc) b hb)]
    rfl

theorem toList_tokenOf (name : String) : (tokenOf name).toList = (bytesOf name).map byteToken := by
  rw [tokenOf, String.toList_ofList, bytesOf_eq, List.map_flatMap]
  exact congrArg (List.flatMap · _) (funext fun c => (map_byteToken_utf8EncodeChar c).symm)

theorem tokenOf_tokenOf (name : String) : tokenOf (tokenOf name) = tokenOf name := by
  apply String.toList_injective
  have hfix : ∀ c ∈ (tokenOf name).toList,
      (if isWordChar c then [c] else List.replicate c.utf8Size '.') = [c] := by
    intro c hc
    rcases mem_tokenOf hc with hword | rfl
    · rw [if_pos hword]
    · rfl
  calc (tokenOf (tokenOf name)).toList
      = (tokenOf name).toList.flatMap fun c =>
          if isWordChar c then [c] else List.replicate c.utf8Size '.' := by
        rw [tokenOf, String.toList_ofList]
    _ = (tokenOf name).toList.flatMap fun c => [c] := List.flatMap_congr hfix
    _ = (tokenOf name).toList := by simp

theorem byteToken_ne_point {b : UInt8} (h : isWordByte b = true) : Char.ofUInt8 b ≠ '.' := by
  intro hpoint
  rw [isWordByte, hpoint] at h
  exact absurd h (by decide)

theorem ofUInt8_injective {x y : UInt8} (h : Char.ofUInt8 x = Char.ofUInt8 y) : x = y := by
  have hnat := congrArg Char.toNat h
  rw [toNat_ofUInt8, toNat_ofUInt8] at hnat
  exact UInt8.toNat_inj.1 hnat

theorem byteToken_eq_iff {x y : UInt8} :
    byteToken x = byteToken y ↔ x = y ∨ (isWordByte x = false ∧ isWordByte y = false) := by
  constructor
  · intro h
    cases hx : isWordByte x <;> cases hy : isWordByte y <;> simp only [byteToken, hx, hy] at h
    · exact .inr ⟨rfl, rfl⟩
    · exact absurd h.symm (byteToken_ne_point hy)
    · exact absurd h (byteToken_ne_point hx)
    · exact .inl (ofUInt8_injective h)
  · rintro (rfl | ⟨hx, hy⟩)
    · rfl
    · simp [byteToken, hx, hy]

theorem tokenOf_eq_iff : tokenOf a = tokenOf b ↔ Collide a b := by
  rw [← String.toList_inj, toList_tokenOf, toList_tokenOf, List.ext_getElem_iff]
  simp only [List.length_map, List.getElem_map, byteToken_eq_iff, Collide]

def groupName (name : String) : String := if name = "" then noNameToken else name

theorem groupToken_eq (name : String) : groupToken name = tokenOf (groupName name) := by
  unfold groupToken groupName
  split
  · decide +kernel
  · rfl

namespace Links

/-- The pattern of a kind has a placeholder. -/
def HasPlaceholder (l : Links) (kind : PageKind) : Prop :=
  ∃ pattern, l.filenames.get? kind = some pattern ∧ placeholder <:+: pattern.toList

/-- A page is named by the pattern of its kind with the token of a name for the first
placeholder. -/
def Inserts (l : Links) (kind : PageKind) (name : String) (page : Except MissingFilename String) :
    Prop :=
  ∃ pattern before after, l.filenames.get? kind = some pattern ∧
    Text.CutAtFirst placeholder pattern.toList before after ∧
    page = .ok (String.ofList (before ++ (tokenOf name).toList ++ after))

theorem HasPlaceholder.inserts (h : l.HasPlaceholder kind) (name : String) :
    l.Inserts kind name (l.page kind (tokenOf name)) := by
  obtain ⟨pattern, hget, hp⟩ := h
  obtain ⟨⟨before, after⟩, hcut⟩ := Option.isSome_iff_exists.1 (Text.hasWord_iff.2 hp)
  refine ⟨pattern, before, after, hget, Text.splitAt?_eq_some_iff.1 hcut, ?_⟩
  simp only [page, hget, Filenames.fill, hcut]

/-- Two pages of a kind differ in what was put in for the placeholder only. -/
theorem HasPlaceholder.page_eq_iff (h : l.HasPlaceholder kind) (a b : String) :
    l.page kind (tokenOf a) = l.page kind (tokenOf b) ↔ Collide a b := by
  obtain ⟨pattern, before, after, hget, hcut, ha⟩ := h.inserts a
  obtain ⟨pattern', before', after', hget', hcut', hb⟩ := h.inserts b
  obtain rfl : pattern = pattern' := Option.some.inj (hget.symm.trans hget')
  obtain ⟨rfl, rfl⟩ := hcut.unique hcut'
  rw [ha, hb, Except.ok.injEq, String.ofList_inj, List.append_cancel_right_eq,
    List.append_cancel_left_eq, String.toList_inj, tokenOf_eq_iff]

/-- Names share a page exactly when they collide: names of types as they stand, names of namespaces
and packages with a word for the empty one, files by their path below the root of the sources. The
token in a page has a word character or a point for each byte of the name, and it is its own
token. -/
theorem pages_shared_iff_collide (l : Links) :
    (l.HasPlaceholder .classPage → ∀ a b : String,
      l.Inserts .classPage a (l.classPage a) ∧ (l.classPage a = l.classPage b ↔ Collide a b)) ∧
    (l.HasPlaceholder .namespacePage → ∀ a b : String,
      l.Inserts .namespacePage (groupName a) (l.namespacePage a) ∧
      (l.namespacePage a = l.namespacePage b ↔ Collide (groupName a) (groupName b))) ∧
    (l.HasPlaceholder .packagePage → ∀ a b : String,
      l.Inserts .packagePage (groupName a) (l.packagePage a) ∧
      (l.packagePage a = l.packagePage b ↔ Collide (groupName a) (groupName b))) ∧
    (l.HasPlaceholder .sourcePage → ∀ f g : Path,
      l.Inserts .sourcePage (l.sourceRoot.relativeTo f) (l.sourcePage f) ∧
      (l.sourcePage f = l.sourcePage g ↔
        Collide (l.sourceRoot.relativeTo f) (l.sourceRoot.relativeTo g))) ∧
    ∀ name : String,
      (∀ c ∈ (tokenOf name).toList, isWordChar c = true ∨ c = '.') ∧
      (tokenOf name).toList.length = (bytesOf name).length ∧
      tokenOf (tokenOf name) = tokenOf name := by
  refine ⟨fun h a b => ⟨h.inserts a, h.page_eq_iff a b⟩, fun h a b => ?_, fun h a b => ?_,
    fun h f g => ⟨h.inserts _, h.page_eq_iff _ _⟩, fun name => ?_⟩
  · simp only [namespacePage, groupToken_eq]
    exact ⟨h.inserts _, h.page_eq_iff _ _⟩
  · simp only [packagePage, groupToken_eq]
    exact ⟨h.inserts _, h.page_eq_iff _ _⟩
  · exact ⟨fun c => mem_tokenOf, by rw [toList_tokenOf, List.length_map], tokenOf_tokenOf name⟩

theorem pages_shared_iff_collide_standard :
    ∃ l : Links, (∀ kind ∈ PageKind.all, l.HasPlaceholder kind) ∧
      l.classPage "A\\Foo" = l.classPage "A.Foo" ∧ l.classPage "é" = l.classPage "--" ∧
      l.classPage "é" ≠ l.classPage "-" ∧ l.namespacePage "" = l.namespacePage "None" ∧
      l.packagePage "a b" ≠ l.packagePage "a_b" ∧
      l.sourcePage ⟨"/src/a/b.php"⟩ = l.sourcePage ⟨"/src/a.b.php"⟩ := by
  let l : Links := ⟨.standard, ⟨"/src"⟩, ""⟩
  have hpatterns : ∀ kind ∈ PageKind.all, l.HasPlaceholder kind := by
    intro kind _
    cases kind
    · exact ⟨"namespace-%s.html", rfl, "namespace-".toList, ".html".toList, by decide⟩
    · exact ⟨"package-%s.html", rfl, "package-".toList, ".html".toList, by decide⟩
    · exact ⟨"class-%s.html", rfl, "class-".toList, ".html".toList, by decide⟩
    · exact ⟨"source-%s.html", rfl, "source-".toList, ".html".toList, by decide⟩
  obtain ⟨hclass, hnamespace, hpackage, hsource, -⟩ := pages_shared_iff_collide l
  replace hclass := hclass (hpatterns _ (by decide))
  refine ⟨l, hpatterns, (hclass _ _).2.2 ?_, (hclass _ _).2.2 ?_, fun h => ?_,
    (hnamespace (hpatterns _ (by decide)) _ _).2.2 ?_, fun h => ?_,
    (hsource (hpatterns _ (by decide)) _ _).2.2 ?_⟩
  · decide +kernel
  · decide +kernel
  · exact absurd ((hclass _ _).2.1 h) (by decide +kernel)
  · decide +kernel
  · exact absurd ((hpackage (hpatterns _ (by decide)) _ _).2.1 h) (by decide +kernel)
  · decide +kernel

end Links
end DocSite
