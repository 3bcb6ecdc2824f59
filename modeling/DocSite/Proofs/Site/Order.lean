import DocSite.Config.Document
import DocSite.Proofs.Lookup
import DocSite.Proofs.Site.Index
import DocSite.Proofs.Text.Order
import DocSite.Site.Generate
import DocSite.Template.Engine
import Mathlib.Order.Compare

namespace DocSite
open Std

/-- Sorting leaves no two items in the wrong order. -/
theorem pairwise_mergeSort {α : Type} (cmp : α → α → Ordering) [TransCmp cmp] (items : List α) :
    (items.mergeSort fun a b => (cmp a b).isLE).Pairwise fun a b => (cmp a b).isLE := by
  apply List.pairwise_mergeSort
  · intro a b c hab hbc
    exact TransCmp.isLE_trans hab hbc
  · intro a b
    have hswap : cmp b a = (cmp a b).swap := OrientedCmp.eq_swap
    rw [hswap]
    cases cmp a b <;> rfl

namespace Text

instance : TransCmp compareChars := by
  have heq : compareChars = List.compareLex (compareOn Char.toNat) := by
    funext s t
    exact compareChars_eq_compareLex s t
  rw [heq]
  infer_instance

/-- Names are compared by their folded form first, then as they are. -/
theorem compareNames_eq_compareLex : compareNames =
    compareLex (Ordering.byKey (fun name => foldCase name.toList) compareChars) compareText := rfl

instance : TransCmp compareNames := by
  rw [compareNames_eq_compareLex]
  infer_instance

end Text

namespace Index

variable {key : Decl → String} {a b : Decl} {types types' : List Decl}

/-- Types are compared by their key first, then by their name. -/
theorem compareBy_eq_compareLex : compareBy key =
    compareLex (Ordering.byKey key Text.compareNames) (Ordering.byKey Decl.name Text.compareText) :=
  rfl

instance : TransCmp (compareBy key) := by
  rw [compareBy_eq_compareLex]
  infer_instance

theorem name_eq_of_compareBy (h : compareBy key a b = .eq) : a.name = b.name := by
  have hname : Text.compareText a.name b.name = .eq := (Ordering.then_eq_eq.1 h).2
  exact LawfulEqCmp.eq_of_compare hname

theorem pairwise_sortBy : (sortBy key types).Pairwise fun a b => (compareBy key a b).isLE :=
  pairwise_mergeSort (compareBy key) types

/-- Two lists of the same types with distinct names are sorted to the same list. -/
theorem sortBy_eq_of_perm (h : types.Perm types') (hnodup : (types.map Decl.name).Nodup) :
    sortBy key types = sortBy key types' := by
  have hleft : (sortBy key types).Perm types := List.mergeSort_perm ..
  have hright : (sortBy key types').Perm types' := List.mergeSort_perm ..
  apply List.Perm.eq_of_pairwise _ pairwise_sortBy pairwise_sortBy
    (hleft.trans (h.trans hright.symm))
  -- the order cannot tell the places of two types apart only if they have one name
  intro a b ha hb hab hba
  have ha : a ∈ types := hleft.mem_iff.1 ha
  have hb : b ∈ types := h.mem_iff.2 (hright.mem_iff.1 hb)
  have hname := name_eq_of_compareBy (OrientedCmp.isLE_antisymm hab hba)
  exact List.inj_on_of_nodup_map hnodup ha hb hname

theorem firsts_of_nodup {seen : List String} (hnodup : (types.map Decl.name).Nodup)
    (hseen : ∀ d ∈ types, d.name ∉ seen) : firsts seen types = types := by
  induction types generalizing seen with
  | nil => rfl
  | cons d types ih =>
    obtain ⟨hd, hnodup⟩ := List.nodup_cons.1 hnodup
    have hrest : firsts (d.name :: seen) types = types := by
      apply ih hnodup
      intro p hp hmem
      rcases List.mem_cons.1 hmem with heq | hmem
      · exact hd (heq ▸ List.mem_map.2 ⟨p, hp, rfl⟩)
      · exact hseen p (.tail _ hp) hmem
    rw [firsts, if_neg (hseen d (.head _)), hrest]

/-- The index of types with distinct names does not depend on their order. -/
theorem ofTypes_eq_of_perm (h : types.Perm types') (hnodup : (types.map Decl.name).Nodup) :
    ofTypes types = ofTypes types' := by
  have hnodup' : (types'.map Decl.name).Nodup := (h.map Decl.name).nodup_iff.1 hnodup
  have hsorted : sortBy Decl.name (firsts [] types) = sortBy Decl.name (firsts [] types') := by
    rw [firsts_of_nodup hnodup (by simp), firsts_of_nodup hnodup' (by simp)]
    exact sortBy_eq_of_perm h hnodup
  rw [ofTypes, hsorted, ofTypes]

end Index

namespace Model

variable {m m' : Model}

/-- A name finds the same type in whatever order the types stand. -/
theorem find?_eq_of_perm (h : m.types.Perm m'.types) (name : String) :
    m.find? name = m'.find? name := by
  apply Option.ext
  intro d
  rw [find?_eq_some_iff, find?_eq_some_iff, h.mem_iff]

theorem resolve?_eq_of_perm (h : m.types.Perm m'.types) (name ns : String) :
    m.resolve? name ns = m'.resolve? name ns := by
  simp only [resolve?, find?_eq_of_perm h]

theorem label_eq_of_perm (h : m.types.Perm m'.types) (l : Links) (ns doc : String) :
    Label.render m l ns doc = Label.render m' l ns doc := by
  have hname : Label.ofName m l ns = Label.ofName m' l ns := by
    funext name
    simp only [Label.ofName, resolve?_eq_of_perm h]
  simp only [Label.render, hname]

end Model

namespace Template.Workshop

variable {w : Workshop} {m : Model}

/-- The templates of a site cannot tell in which order the types of the model stand. -/
theorem engine_eq_of_perm (h : w.model.types.Perm m.types) :
    { w with model := m }.engine = w.engine := by
  have hfilter : { w with model := m }.filter? = w.filter? := by
    funext name
    unfold filter?
    simp only [← Model.label_eq_of_perm h]
    rfl
  have hhost : ∀ t, { w with model := m }.host t = w.host t := by
    intro t
    simp only [host, hfilter]
    rfl
  have hrender : ∀ t name context memory, { w with model := m }.renderPage t name context memory =
      w.renderPage t name context memory := by
    intro t name context memory
    simp only [renderPage, hhost]
    rfl
  simp only [engine, hrender]

end Template.Workshop

/-- The index and the pages in their order do not depend on the order of the types. -/
theorem Site.pages_eq_of_perm {m m' : Model} (hroot : m.root = m'.root)
    (h : m.types.Perm m'.types) (c : Config) (l : Links) :
    (Site.mk m c l).index = (Site.mk m' c l).index ∧
    (Site.mk m c l).pages = (Site.mk m' c l).pages := by
  have hindex : (Site.mk m c l).index = (Site.mk m' c l).index :=
    Index.ofTypes_eq_of_perm h m.names_nodup
  have hbase : ∀ i, (Site.mk m c l).baseContext i = (Site.mk m' c l).baseContext i := by
    intro i
    rw [baseContext, hroot, baseContext]
  have hcommon : ∀ i, (Site.mk m c l).commonPages i = (Site.mk m' c l).commonPages i := by
    intro i
    rw [commonPages, hbase, commonPages]
    rfl
  have hnamespace : ∀ i, (Site.mk m c l).namespacePage i = (Site.mk m' c l).namespacePage i := by
    intro i
    funext g
    rw [namespacePage, hbase, namespacePage]
    rfl
  have hpackage : ∀ i, (Site.mk m c l).packagePage i = (Site.mk m' c l).packagePage i := by
    intro i
    funext g
    rw [packagePage, hbase, packagePage]
    rfl
  have hclass : ∀ i, (Site.mk m c l).classPage i = (Site.mk m' c l).classPage i := by
    intro i
    funext d
    rw [classPage, classContext, hbase, classPage, classContext]
    rfl
  have hsource : (Site.mk m c l).sourcePage = (Site.mk m' c l).sourcePage := by
    funext d page file
    rw [sourcePage, Model.relativePath, hroot, sourcePage, Model.relativePath]
  have htypes : ∀ i, (Site.mk m c l).typePages i = (Site.mk m' c l).typePages i := by
    intro i
    funext sources d
    rw [typePages, hclass, hsource, typePages]
  refine ⟨hindex, ?_⟩
  simp only [pages, hindex, hcommon, hnamespace, hpackage, htypes]

/-- A site does not depend on the order in which its types were extracted: the index and with it
the source entry of each file, the pages in their order, every run of any engine up to its end or its
failure, and the engine of the site itself are the same for every order. -/
theorem Site.generate_eq_of_perm {m m' : Model} (hroot : m.root = m'.root)
    (h : m.types.Perm m'.types) (c : Config) (l : Links) :
    (Site.mk m c l).index = (Site.mk m' c l).index ∧
    (Site.mk m c l).pages = (Site.mk m' c l).pages ∧
    (∀ (σ : Type) (e : Engine σ) (highlighter : Highlighter) (output : Path) (r : Run σ),
      (Site.mk m c l).generate e highlighter output r =
        (Site.mk m' c l).generate e highlighter output r) ∧
    ∀ (root output : Path) (highlighter : Highlighter),
      (Template.Workshop.mk root output m l highlighter).engine =
        (Template.Workshop.mk root output m' l highlighter).engine := by
  obtain ⟨hindex, hpages⟩ := pages_eq_of_perm hroot h c l
  have hcount : (Site.mk m c l).pageCount = (Site.mk m' c l).pageCount := by
    rw [pageCount, hindex, pageCount]
  refine ⟨hindex, hpages, ?_, ?_⟩
  · intro σ e highlighter output r
    rw [generate, hcount, hpages, generate]
  · intro root output highlighter
    exact (Template.Workshop.engine_eq_of_perm (w := ⟨root, output, m, l, highlighter⟩) h).symm

namespace Site

/-- A type of a file that another type is declared in as well. The names of the two have one
token, so that their pages have one link. -/
def twinType (name : String) : Decl :=
  (Decl.builtin name .classType).declaredAt ⟨"src/twins.php"⟩ 1

def twins : Model := ⟨⟨"src"⟩, [twinType "N-A", twinType "N.A"], by decide⟩

def twinsSwapped : Model := ⟨⟨"src"⟩, [twinType "N.A", twinType "N-A"], by decide⟩

theorem generate_eq_of_perm_twins :
    let c := Config.standard ⟨"."⟩
    let l := Links.ofConfig c ⟨"src"⟩
    let blank : Engine Unit := ⟨fun _ _ _ state => (.ok "", state)⟩
    let r : Run Unit := ⟨⟨[(["out"], .dir)], []⟩, (), .fresh true, [], {}, []⟩
    twins.types ≠ twinsSwapped.types ∧
    l.classPage "N-A" = l.classPage "N.A" ∧
    twins.root = twinsSwapped.root ∧
    twins.types.Perm twinsSwapped.types ∧
    (Site.mk twins c l).index = (Site.mk twinsSwapped c l).index ∧
    (Site.mk twins c l).generate blank .plain ⟨"out"⟩ r =
      (Site.mk twinsSwapped c l).generate blank .plain ⟨"out"⟩ r := by
  intro c l blank r
  have hperm : twins.types.Perm twinsSwapped.types := .swap ..
  have hroot : twins.root = twinsSwapped.root := rfl
  obtain ⟨hindex, -, hgenerate, -⟩ := generate_eq_of_perm hroot hperm c l
  exact ⟨by decide, rfl, rfl, hperm, hindex, hgenerate Unit blank .plain ⟨"out"⟩ r⟩

end Site
end DocSite
