import DocSite.Proofs.Except
import DocSite.Proofs.RawPath
import DocSite.Proofs.Text.Cut
import DocSite.Site.View

namespace DocSite

theorem mem_tokenOf {name : String} {c : Char} (hc : c ∈ (tokenOf name).toList) :
    isWordChar c = true ∨ c = '.' := by
  rw [tokenOf, String.toList_ofList] at hc
  obtain ⟨d, -, hc⟩ := List.mem_flatMap.1 hc
  split at hc
  · rename_i hword
    exact .inl (List.mem_singleton.1 hc ▸ hword)
  · exact .inr (List.mem_replicate.1 hc).2

theorem no_separator_tokenOf (name : String) : '/' ∉ (tokenOf name).toList :=
  fun h => absurd (mem_tokenOf h) (by decide)

theorem no_separator_groupToken (name : String) : '/' ∉ (groupToken name).toList := by
  unfold groupToken
  split
  · decide
  · exact no_separator_tokenOf name

theorem Filenames.mem_patterns {f : Filenames} {kind : PageKind} {pattern : String}
    (h : f.get? kind = some pattern) : (kind, pattern) ∈ f.patterns := by
  refine List.mem_filterMap.2 ⟨kind, ?_, by simp [h]⟩
  cases kind <;> simp [PageKind.all]

/-- A file name has the characters of its pattern, apart from those that tokens are made of. -/
theorem Filenames.filter_fill {p : Char → Bool} {pattern token : String}
    (hplaceholder : ∀ c ∈ placeholder, p c = false) (htoken : ∀ c ∈ token.toList, p c = false) :
    (fill pattern token).toList.filter p = pattern.toList.filter p := by
  have hnone : ∀ s : List Char, (∀ c ∈ s, p c = false) → s.filter p = [] := by
    intro s hs
    exact List.filter_eq_nil_iff.2 fun c hc => Bool.not_eq_true _ ▸ hs c hc
  unfold fill
  split
  · rename_i before after hcut
    rw [String.toList_ofList, Text.eq_of_splitAt?_eq_some hcut]
    simp only [List.filter_append, hnone _ htoken, hnone _ hplaceholder]
  · rfl

theorem Filenames.mem_fill_iff {c : Char} {pattern token : String} (hplaceholder : c ∉ placeholder)
    (htoken : c ∉ token.toList) : c ∈ (fill pattern token).toList ↔ c ∈ pattern.toList := by
  have hmem : ∀ s : List Char, c ∈ s ↔ c ∈ s.filter (· == c) := by simp
  have hother : ∀ s : List Char, c ∉ s → ∀ d ∈ s, (d == c) = false := by
    intro s hs d hd
    rw [beq_eq_false_iff_ne]
    rintro rfl
    exact hs hd
  rw [hmem, filter_fill (hother _ hplaceholder) (hother _ htoken), ← hmem]

/-- A link that was made from a pattern by putting in a token. -/
def Links.Fills (l : Links) (link : String) : Prop :=
  ∃ kind pattern token, (kind, pattern) ∈ l.filenames.patterns ∧ '/' ∉ token.toList ∧
    link = Filenames.fill pattern token

namespace Links

variable {l : Links} {d : Decl} {m : Member} {file : Path} {link token : String} {kind : PageKind}

theorem page_eq_ok (h : l.page kind token = .ok link) (htoken : '/' ∉ token.toList) :
    l.Fills link := by
  unfold page at h
  split at h
  · rename_i pattern hp
    exact ⟨kind, pattern, token, Filenames.mem_patterns hp, htoken, (Except.ok.inj h).symm⟩
  · simp at h

theorem typePage_eq {pattern : String} (h : l.filenames.get? .classPage = some pattern) (d : Decl) :
    l.typePage d = .ok (Filenames.fill pattern (tokenOf d.name)) := by
  rw [typePage, classPage, page, h]

theorem sourcePage_fills (h : l.sourcePage file = .ok link) : l.Fills link :=
  page_eq_ok h (no_separator_tokenOf _)

theorem sourcePage_eq_of_samePlace {other : Path} (h : other.SamePlace file) :
    l.sourcePage other = l.sourcePage file := by
  have hraw : other.raw.SamePlace file.raw := Path.samePlace_raw_iff.2 h
  rw [sourcePage, Path.relativeTo, RawPath.relativeTo_eq_of_samePlace rfl hraw, sourcePage,
    Path.relativeTo]

def lineMark : Option Nat → String
  | some n => s!"#{n}"
  | none => ""

theorem sourceLine_eq_ok {line : Option Nat} (h : l.sourceLine file line = .ok link) :
    ∃ page, l.sourcePage file = .ok page ∧ link = page ++ lineMark line := by
  obtain ⟨page, hpage, h⟩ := bind_eq_ok.1 h
  refine ⟨page, hpage, ?_⟩
  cases line with
  | none => simpa [lineMark] using (Except.ok.inj h).symm
  | some n =>
    rw [← Except.ok.inj h]
    exact String.append_assoc

theorem sourceLink_eq_ok {withLine : Bool} (hfile : d.sourceFile? = some file)
    (h : l.sourceLink d withLine = .ok link) : ∃ page, l.sourcePage file = .ok page ∧
      link = page ++ lineMark (if withLine then d.line else none) := by
  rw [sourceLink, hfile] at h
  exact sourceLine_eq_ok h

theorem memberSourceLink_eq_ok (hfile : d.sourceFile? = some file)
    (h : l.memberSourceLink d m = .ok link) :
    ∃ page, l.sourcePage file = .ok page ∧ link = page ++ lineMark m.line := by
  rw [memberSourceLink, hfile] at h
  exact sourceLine_eq_ok h

end Links

variable {l : Links} {d : Decl} {m : Member}

theorem TypeView.of_eq_ok {v : TypeView} (h : TypeView.of l d = .ok v) :
    l.typePage d = .ok v.link ∧ l.sourceLink d true = .ok v.sourceLink ∧ v.name = d.name := by
  obtain ⟨link, hlink, h⟩ := bind_eq_ok.1 h
  obtain ⟨source, hsource, h⟩ := bind_eq_ok.1 h
  rw [← Except.ok.inj h]
  exact ⟨hlink, hsource, rfl⟩

theorem MemberView.of_eq_ok {v : MemberView} (h : MemberView.of l d m = .ok v) :
    l.memberLink d m = .ok v.link ∧ l.memberSourceLink d m = .ok v.sourceLink ∧
      v.name = m.name := by
  obtain ⟨link, hlink, h⟩ := bind_eq_ok.1 h
  obtain ⟨source, hsource, h⟩ := bind_eq_ok.1 h
  rw [← Except.ok.inj h]
  exact ⟨hlink, hsource, rfl⟩

theorem MemberView.anchor_of_eq_ok {v : MemberView} (h : MemberView.of l d m = .ok v) :
    v.anchor = anchorOf v.link := by
  obtain ⟨link, -, h⟩ := bind_eq_ok.1 h
  obtain ⟨source, -, h⟩ := bind_eq_ok.1 h
  rw [← Except.ok.inj h]

def Partition.all (p : Partition) : List TypeView := p.classes ++ p.interfaces ++ p.exceptions

theorem Partition.of_eq_ok {types : List Decl} {p : Partition} (h : Partition.of l types = .ok p)
    {v : TypeView} (hv : v ∈ p.all) : ∃ d ∈ types, TypeView.of l d = .ok v := by
  obtain ⟨views, hviews, h⟩ := bind_eq_ok.1 h
  obtain rfl := Except.ok.inj h
  refine exists_of_mapM_eq_ok hviews ?_
  simp only [all, List.mem_append, List.mem_filter] at hv
  rcases hv with (hv | hv) | hv <;> exact hv.1

def ClassView.types (v : ClassView) : List TypeView :=
  v.info :: (v.tree ++ v.subclasses ++ v.implementers)

def ClassView.members (v : ClassView) : List MemberView := v.constants ++ v.properties ++ v.methods

theorem ClassView.of_eq_ok {tree subclasses implementers : List Decl} {v : ClassView}
    (h : ClassView.of l d tree subclasses implementers = .ok v) : TypeView.of l d = .ok v.info ∧
      (∀ w ∈ v.types, ∃ p ∈ d :: (tree ++ subclasses ++ implementers), TypeView.of l p = .ok w) ∧
      ∀ w ∈ v.members, ∃ m ∈ d.members, MemberView.of l d m = .ok w := by
  obtain ⟨info, hinfo, h⟩ := bind_eq_ok.1 h
  obtain ⟨tree', htree, h⟩ := bind_eq_ok.1 h
  obtain ⟨subclasses', hsub, h⟩ := bind_eq_ok.1 h
  obtain ⟨implementers', himpl, h⟩ := bind_eq_ok.1 h
  obtain ⟨constants, hconstants, h⟩ := bind_eq_ok.1 h
  obtain ⟨properties, hproperties, h⟩ := bind_eq_ok.1 h
  obtain ⟨methods, hmethods, h⟩ := bind_eq_ok.1 h
  obtain rfl := Except.ok.inj h
  have hkind : ∀ {kind views}, (d.membersOf kind).mapM (MemberView.of l d) = .ok views →
      ∀ w ∈ views, ∃ m ∈ d.members, MemberView.of l d m = .ok w := by
    intro kind views hviews w hw
    obtain ⟨m, hm, hof⟩ := exists_of_mapM_eq_ok hviews hw
    exact ⟨m, (List.mem_filter.1 hm).1, hof⟩
  refine ⟨hinfo, ?_, ?_⟩
  · intro w hw
    simp only [types, List.mem_cons, List.mem_append] at hw
    rcases hw with rfl | (hw | hw) | hw
    · exact ⟨d, .head _, hinfo⟩
    · obtain ⟨p, hp, hof⟩ := exists_of_mapM_eq_ok htree hw
      exact ⟨p, by simp [hp], hof⟩
    · obtain ⟨p, hp, hof⟩ := exists_of_mapM_eq_ok hsub hw
      exact ⟨p, by simp [hp], hof⟩
    · obtain ⟨p, hp, hof⟩ := exists_of_mapM_eq_ok himpl hw
      exact ⟨p, by simp [hp], hof⟩
  · intro w hw
    simp only [members, List.mem_append] at hw
    rcases hw with (hw | hw) | hw
    · exact hkind hconstants w hw
    · exact hkind hproperties w hw
    · exact hkind hmethods w hw

end DocSite
