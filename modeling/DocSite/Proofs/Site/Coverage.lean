import DocSite.Proofs.Site.Closure
import DocSite.Proofs.Site.Written

namespace DocSite

section Partitions

variable {l : Links} {d : Decl} {v : TypeView} {types all : List Decl} {views : List TypeView}
variable {key : Decl → String} {order : TypeView → String} {p : Partition}

theorem TypeView.of_fields (h : TypeView.of l d = .ok v) : v.name = d.name ∧
    v.shortName = d.shortName ∧ v.ns = d.ns ∧ v.package = d.package ∧ v.kind = d.kind := by
  obtain ⟨link, -, h⟩ := bind_eq_ok.1 h
  obtain ⟨source, -, h⟩ := bind_eq_ok.1 h
  rw [← Except.ok.inj h]
  exact ⟨rfl, rfl, rfl, rfl, rfl⟩

/-- The order of the views on a page: by a key, then by full name. -/
def TypeView.Precedes (order : TypeView → String) (v w : TypeView) : Prop :=
  (Text.compareNames (order v) (order w)).then (Text.compareText v.name w.name) = .lt

/-- A partition lists just these types: each once, in the list of its kind, and every list in
strictly ascending order. -/
structure Partition.Covers (p : Partition) (l : Links) (order : TypeView → String)
    (types : List Decl) : Prop where
  perm : (p.all.map Except.ok).Perm (types.map (TypeView.of l))
  classes_kind : ∀ v ∈ p.classes, v.kind = .classType
  interfaces_kind : ∀ v ∈ p.interfaces, v.kind = .interfaceType
  exceptions_kind : ∀ v ∈ p.exceptions, v.kind = .exceptionType
  classes_ascending : p.classes.Pairwise (TypeView.Precedes order)
  interfaces_ascending : p.interfaces.Pairwise (TypeView.Precedes order)
  exceptions_ascending : p.exceptions.Pairwise (TypeView.Precedes order)

theorem Partition.Covers.exists_type (h : p.Covers l order types) (hv : v ∈ p.all) :
    ∃ d ∈ types, TypeView.of l d = .ok v :=
  List.mem_map.1 (h.perm.subset (List.mem_map_of_mem hv))

/-- The three lists of a partition have a place for every view. -/
theorem perm_filter_kinds (views : List TypeView) :
    (views.filter (·.kind == .classType) ++ views.filter (·.kind == .interfaceType) ++
      views.filter (·.kind == .exceptionType)).Perm views := by
  induction views with
  | nil => rfl
  | cons v views ih =>
    cases hkind : v.kind with
    | classType => simpa [List.filter_cons, hkind] using ih
    | interfaceType =>
      simp only [List.filter_cons, hkind]
      simp only [beq_self_eq_true, if_true, reduceCtorEq, beq_iff_eq, if_false,
        List.append_assoc, List.cons_append]
      exact List.perm_middle.trans (by simpa using ih)
    | exceptionType =>
      simp only [List.filter_cons, hkind]
      simp only [beq_self_eq_true, if_true, reduceCtorEq, beq_iff_eq, if_false]
      exact List.perm_middle.trans (by simpa using ih)

theorem pairwise_views (hviews : types.map (TypeView.of l) = views.map .ok)
    (hkey : ∀ d v, TypeView.of l d = .ok v → order v = key d)
    (hsorted : types.Pairwise fun a b => Index.compareBy key a b = .lt) :
    views.Pairwise (TypeView.Precedes order) := by
  -- the order of two types is that of their views, whatever these are
  let R (x y : Except MissingFilename TypeView) : Prop :=
    ∀ v w, x = .ok v → y = .ok w → TypeView.Precedes order v w
  have hR : (types.map (TypeView.of l)).Pairwise R := by
    refine List.pairwise_map.2 (hsorted.imp fun {a b} hlt v w hv hw => ?_)
    rw [TypeView.Precedes, hkey a v hv, hkey b w hw, (TypeView.of_fields hv).1,
      (TypeView.of_fields hw).1]
    exact hlt
  rw [hviews, List.pairwise_map] at hR
  exact hR.imp fun h => h _ _ rfl rfl

theorem Partition.covers_of (hof : Partition.of l types = .ok p) (hperm : types.Perm all)
    (hkey : ∀ d v, TypeView.of l d = .ok v → order v = key d)
    (hsorted : types.Pairwise fun a b => Index.compareBy key a b = .lt) :
    p.Covers l order all := by
  obtain ⟨views, hviews, hof⟩ := bind_eq_ok.1 hof
  obtain rfl := Except.ok.inj hof
  have hmap := map_eq_of_mapM_eq_ok hviews
  have hascending := pairwise_views hmap hkey hsorted
  refine ⟨?_, ?_, ?_, ?_, hascending.filter _, hascending.filter _, hascending.filter _⟩
  · have hall := (perm_filter_kinds views).map (Except.ok (ε := MissingFilename))
    exact (hall.trans (.of_eq hmap.symm)).trans (hperm.map _)
  all_goals
    intro v hv
    simpa using (List.mem_filter.1 hv).2

end Partitions

namespace Site

variable {s : Site} {pages ws : List WrittenPage} {key other : Decl → String}
variable {order : TypeView → String} {title : PageContext → Option String}
variable {related : PageContext → List String}

/-- There is one page for each name, but the empty one, that a key of the types has. It lists just
the types of that name, and the names that go with them. -/
structure CoversGroups (s : Site) (pages : List WrittenPage) (key other : Decl → String)
    (order : TypeView → String) (title : PageContext → Option String)
    (related : PageContext → List String) : Prop where
  titles : ∃ names, pages.map (fun w => title w.context) = names.map some ∧
    Text.Enumerates names fun name => name ≠ "" ∧ ∃ d ∈ s.model.types, key d = name
  types : ∀ w ∈ pages, ∀ name, title w.context = some name →
    w.context.types.Covers s.links order (s.model.types.filter fun d => key d == name)
  related : ∀ w ∈ pages, ∀ name, title w.context = some name →
    Text.Enumerates (related w.context) fun o =>
      o ≠ "" ∧ ∃ d ∈ s.model.types, key d = name ∧ other d = o

def pagesOf (sort : PageSort) (written : List WrittenPage) : List WrittenPage :=
  written.filter (·.sort == sort)

structure ShowsClass (s : Site) (d : Decl) (w : WrittenPage) : Prop where
  sort : w.sort = .ofClass
  name : w.context.cls.map (·.info.name) = some d.name
  types : w.context.types.Covers s.links TypeView.name [d]

/-- Where the pages of a run list the types of the model. -/
structure Coverage (s : Site) (written : List WrittenPage) : Prop where
  /-- The pages with fixed names are those of the configuration. -/
  common_links : (pagesOf .common written).map (·.link) = s.config.templates.common.keys
  /-- Each of them lists all types, by full name. -/
  common : ∀ w ∈ pagesOf .common written,
    w.context.types.Covers s.links TypeView.name s.model.types
  /-- The page of a namespace lists its types, by short name. -/
  namespaces : s.CoversGroups (pagesOf .ofNamespace written) Decl.ns Decl.package
    TypeView.shortName PageContext.ns PageContext.packages
  /-- It is in a package if that is the only one of its types, not counting the empty one. -/
  package_of_namespace : ∀ w ∈ pagesOf .ofNamespace written, ∀ name, w.context.ns = some name →
    ∀ package, w.context.package = some package ↔
      ∀ p, (p ≠ "" ∧ ∃ d ∈ s.model.types, d.ns = name ∧ d.package = p) ↔ p = package
  /-- The page of a package lists its types, by full name. -/
  packages : s.CoversGroups (pagesOf .ofPackage written) Decl.package Decl.ns
    TypeView.name PageContext.package PageContext.namespaces
  /-- Each type has one page of its own. -/
  classes : ∃ types, types.Perm s.model.types ∧
    List.Forall₂ s.ShowsClass types (pagesOf .ofClass written)
  /-- A type without a namespace is on no page of a namespace. -/
  ns_ne : ∀ w ∈ pagesOf .ofNamespace written, ∀ v ∈ w.context.types.all, v.ns ≠ ""
  /-- A type without a package is on no page of a package. -/
  package_ne : ∀ w ∈ pagesOf .ofPackage written, ∀ v ∈ w.context.types.all, v.package ≠ ""

theorem covers_of_partition {types all : List Decl} {p : Partition}
    (h : s.partition types = .ok p) (hperm : types.Perm all)
    (hkey : ∀ d v, TypeView.of s.links d = .ok v → order v = key d)
    (hsorted : types.Pairwise fun a b => Index.compareBy key a b = .lt) :
    p.Covers s.links order all :=
  Partition.covers_of (mapError_eq_ok.1 h) hperm hkey hsorted

theorem coversGroups_of_forall₂ {sorted : Decl → String}
    (hkey : ∀ d v, TypeView.of s.links d = .ok v → order v = sorted d)
    (hpages : List.Forall₂ (fun (g : Group) w => title w.context = some g.name ∧
      related w.context = g.related ∧ s.partition g.types = .ok w.context.types)
      (Index.groupBy key other sorted s.index.types) pages) :
    s.CoversGroups pages key other order title related := by
  have hgroup : ∀ w ∈ pages, ∀ name, title w.context = some name →
      ∃ g, g.name = name ∧ Index.Gathers key other sorted s.index.types g ∧
        related w.context = g.related ∧ s.partition g.types = .ok w.context.types := by
    intro w hw name hname
    obtain ⟨g, hg, htitle, hrelated, htypes⟩ := exists_of_forall₂ hpages hw
    have hg := Index.gathers_of_mem s.nodup_names hg
    exact ⟨g, Option.some.inj (htitle.symm.trans hname), hg, hrelated, htypes⟩
  constructor
  case titles =>
    refine ⟨(Index.groupBy key other sorted s.index.types).map Group.name, ?_, ?_⟩
    · rw [List.map_map]
      exact map_eq_of_forall₂ hpages fun g w h => h.1
    · obtain ⟨hascending, hmem⟩ := Index.enumerates_groupBy key other sorted s.index.types
      exact ⟨hascending, fun name => by simp only [hmem, mem_index_types]⟩
  case types =>
    intro w hw name hname
    obtain ⟨g, rfl, hg, -, htypes⟩ := hgroup w hw name hname
    have hperm : g.types.Perm (s.model.types.filter fun d => key d == g.name) :=
      hg.perm.trans ((Index.types_perm s.model).filter _)
    exact covers_of_partition htypes hperm hkey hg.ascending
  case related =>
    intro w hw name hname
    obtain ⟨g, rfl, hg, hrelated, -⟩ := hgroup w hw name hname
    rw [hrelated]
    exact ⟨hg.related.ascending, fun o => by simp only [hg.related.mem_iff, mem_index_types]⟩

theorem CoversGroups.key_ne {shown : TypeView → String} {w : WrittenPage} {v : TypeView}
    (h : s.CoversGroups pages key other order title related)
    (hkey : ∀ d v, TypeView.of s.links d = .ok v → shown v = key d) (hw : w ∈ pages)
    (hv : v ∈ w.context.types.all) : shown v ≠ "" := by
  obtain ⟨names, htitles, hnames⟩ := h.titles
  obtain ⟨name, hname, htitle⟩ : ∃ name ∈ names, some name = title w.context := by
    rw [← List.mem_map, ← htitles]
    exact List.mem_map_of_mem (f := fun w : WrittenPage => title w.context) hw
  obtain ⟨d, hd, hof⟩ := (h.types w hw name htitle.symm).exists_type hv
  have hd : key d = name := by simpa using (List.mem_filter.1 hd).2
  rw [hkey d v hof, hd]
  exact ((hnames.mem_iff name).1 hname).1

theorem onlyName?_eq_some_iff {names : List String} {name : String} (hnodup : names.Nodup) :
    onlyName? names = some name ↔ ∀ n, n ∈ names ↔ n = name := by
  match names with
  | [] =>
    simp only [onlyName?, reduceCtorEq, List.not_mem_nil, false_iff]
    exact fun h => h name rfl
  | [n] =>
    simp only [onlyName?, Option.some.injEq, List.mem_singleton]
    exact ⟨fun h _ => by rw [h], fun h => (h n).1 rfl⟩
  | m :: n :: rest =>
    simp only [onlyName?, reduceCtorEq, false_iff]
    intro h
    -- two names that are the same one would repeat it
    have hm := (h m).1 (by simp)
    have hn := (h n).1 (by simp)
    simp [hm, hn] at hnodup

/-- A page with a fixed name has the name, and lists all types. -/
structure ShowsCommon (s : Site) (entry : String × Path) (w : WrittenPage) : Prop where
  sort : w.sort = .common
  link : w.link = entry.1
  types : s.partition s.index.types = .ok w.context.types

structure ShowsNamespace (s : Site) (g : Group) (w : WrittenPage) : Prop where
  sort : w.sort = .ofNamespace
  ns : w.context.ns = some g.name
  packages : w.context.packages = g.related
  package : w.context.package = onlyName? g.related
  types : s.partition g.types = .ok w.context.types

structure ShowsPackage (s : Site) (g : Group) (w : WrittenPage) : Prop where
  sort : w.sort = .ofPackage
  package : w.context.package = some g.name
  namespaces : w.context.namespaces = g.related
  types : s.partition g.types = .ok w.context.types

/-- The source page of a file, written for the type that introduces it. -/
structure ShowsSource (s : Site) (q : Decl × Path) (w : WrittenPage) : Prop where
  sort : w.sort = .ofSource
  link : s.links.sourcePage q.2 = .ok w.link
  fileName : w.context.fileName = some (s.model.relativePath q.2)

theorem forall₂_commonPages (h : WrittenAs (s.commonPages s.index) ws) :
    List.Forall₂ s.ShowsCommon s.config.templates.common ws := by
  unfold commonPages at h
  split at h
  · rename_i hempty
    obtain rfl := List.forall₂_nil_left_iff.1 h
    rw [List.isEmpty_iff.1 hempty]
    exact .nil
  split at h
  · obtain ⟨w, _, ⟨page, hpage, -⟩, -, -⟩ := List.forall₂_cons_left_iff.1 h
    contradiction
  · rename_i types htypes
    refine (List.forall₂_map_left_iff.1 h).imp fun entry w ⟨page, hpage, source, hw⟩ => ?_
    obtain rfl := Except.ok.inj hpage
    rw [hw]
    exact ⟨rfl, rfl, htypes⟩

theorem forall₂_namespacePages
    (h : WrittenAs (s.index.namespaces.map (s.namespacePage s.index)) ws) :
    List.Forall₂ s.ShowsNamespace s.index.namespaces ws := by
  refine (List.forall₂_map_left_iff.1 h).imp fun g w ⟨page, hpage, source, hw⟩ => ?_
  obtain ⟨-, hsort, types, htypes, hcontext⟩ := namespacePage_eq_ok hpage
  rw [hw, hcontext]
  exact ⟨hsort, rfl, rfl, rfl, htypes⟩

theorem forall₂_packagePages
    (h : WrittenAs (s.index.packages.map (s.packagePage s.index)) ws) :
    List.Forall₂ s.ShowsPackage s.index.packages ws := by
  refine (List.forall₂_map_left_iff.1 h).imp fun g w ⟨page, hpage, source, hw⟩ => ?_
  obtain ⟨-, hsort, types, htypes, hcontext⟩ := packagePage_eq_ok hpage
  rw [hw, hcontext]
  exact ⟨hsort, rfl, rfl, htypes⟩

theorem showsClass_of_classPage {d : Decl} {page : Page} {w : WrittenPage}
    (hpage : s.classPage s.index d = .ok page) (hw : w.Of page) : s.ShowsClass d w := by
  obtain ⟨-, hsort, hcontext⟩ := classPage_eq_ok hpage
  obtain ⟨tree, cls, types, -, hcls, htypes, heq⟩ := classContext_eq_ok hcontext
  obtain ⟨source, rfl⟩ := hw
  have hinfo := (TypeView.of_eq_ok (ClassView.of_eq_ok hcls).1).2.2
  rw [heq]
  refine ⟨hsort, congrArg some hinfo, ?_⟩
  exact covers_of_partition htypes (.refl _) (fun d v hv => (TypeView.of_fields hv).1) (by simp)

theorem showsSource_of_sourcePage {d : Decl} {page source : Page} {file : Path} {w : WrittenPage}
    (hfile : s.index.Introduces d file) (hsource : s.sourcePage d page file = .ok source)
    (hw : w.Of source) : s.ShowsSource (d, file) w := by
  obtain ⟨hlink, hsort, hcontext⟩ := sourcePage_eq_ok hsource hfile.1
  obtain ⟨_, rfl⟩ := hw
  exact ⟨hsort, hlink, by rw [hcontext]⟩

theorem Block.sort_cases {d : Decl} {block : List WrittenPage} (h : s.Block d block)
    {w : WrittenPage} (hw : w ∈ block) : w.sort = .ofClass ∨ w.sort = .ofSource := by
  cases h with
  | alone hpage hv hnone =>
    obtain rfl := List.mem_singleton.1 hw
    exact .inl (showsClass_of_classPage hpage hv).sort
  | withSource hpage hv hfile hsource hu =>
    rcases List.mem_pair.1 hw with rfl | rfl
    · exact .inl (showsClass_of_classPage hpage hv).sort
    · exact .inr (showsSource_of_sourcePage hfile hsource hu).sort

/-- Among the pages of a type there is one of the type itself. -/
theorem Block.pagesOf_class {d : Decl} {block : List WrittenPage} (h : s.Block d block) :
    ∃ w, pagesOf .ofClass block = [w] ∧ s.ShowsClass d w := by
  cases h with
  | @alone page w hpage hw hnone =>
    have hshows := showsClass_of_classPage hpage hw
    exact ⟨w, by simp [pagesOf, hshows.sort], hshows⟩
  | @withSource page source v w file hpage hv hfile hsource hw =>
    have hshows := showsClass_of_classPage hpage hv
    have hsort := (showsSource_of_sourcePage hfile hsource hw).sort
    exact ⟨v, by simp [pagesOf, hshows.sort, hsort], hshows⟩

theorem Block.pagesOf_source {d : Decl} {block : List WrittenPage} (h : s.Block d block)
    (hd : d ∈ s.index.types) : List.Forall₂ s.ShowsSource
      (s.index.sources.filter fun q => q.1.name == d.name) (pagesOf .ofSource block) := by
  cases h with
  | @alone page w hpage hw hnone =>
    have hsort := (showsClass_of_classPage hpage hw).sort
    rcases filter_sources hd with ⟨hnil, -⟩ | ⟨file, -, hfile⟩
    · rw [hnil]
      simp [pagesOf, hsort]
    · exact absurd hfile (hnone file)
  | @withSource page source v w file hpage hv hfile hsource hw =>
    have hsort := (showsClass_of_classPage hpage hv).sort
    have hshows := showsSource_of_sourcePage hfile hsource hw
    rcases filter_sources hd with ⟨-, hnone⟩ | ⟨file', hone, hfile'⟩
    · exact absurd hfile (hnone file)
    · obtain rfl := Option.some.inj (hfile.1.symm.trans hfile'.1)
      rw [hone]
      simp [pagesOf, hsort, hshows.sort, hshows]

theorem pagesOf_append {sort : PageSort} {vs : List WrittenPage} :
    pagesOf sort (vs ++ ws) = pagesOf sort vs ++ pagesOf sort ws :=
  List.filter_append vs ws

theorem pagesOf_eq_nil {sort : PageSort} (h : ∀ w ∈ ws, w.sort ≠ sort) : pagesOf sort ws = [] :=
  List.filter_eq_nil_iff.2 fun w hw heq => h w hw (beq_iff_eq.1 heq)

theorem pagesOf_eq_ite {α : Type} {R : α → WrittenPage → Prop} {items : List α}
    {sort : PageSort} (other : PageSort) (h : List.Forall₂ R items ws)
    (hR : ∀ a w, R a w → w.sort = sort) :
    pagesOf other ws = if sort = other then ws else [] := by
  have hsort : ∀ w ∈ ws, w.sort = sort := fun w hw =>
    let ⟨a, _, ha⟩ := exists_of_forall₂ h hw
    hR a w ha
  split
  · rename_i heq
    exact List.filter_eq_self.2 fun w hw => beq_iff_eq.2 ((hsort w hw).trans heq)
  · rename_i hne
    exact pagesOf_eq_nil fun w hw => hsort w hw ▸ hne

theorem forall₂_pagesOf_class {types : List Decl} {blocks : List (List WrittenPage)}
    (h : List.Forall₂ s.Block types blocks) :
    List.Forall₂ s.ShowsClass types (pagesOf .ofClass blocks.flatten) := by
  induction h with
  | nil => exact .nil
  | cons hblock _ ih =>
    obtain ⟨w, hw, hshows⟩ := hblock.pagesOf_class
    rw [List.flatten_cons, pagesOf_append, hw]
    exact .cons hshows ih

theorem forall₂_pagesOf_source {types : List Decl} {blocks : List (List WrittenPage)}
    (h : List.Forall₂ s.Block types blocks) (hmem : ∀ d ∈ types, d ∈ s.index.types) :
    List.Forall₂ s.ShowsSource
      (types.flatMap fun d => s.index.sources.filter fun q => q.1.name == d.name)
      (pagesOf .ofSource blocks.flatten) := by
  induction h with
  | nil => exact .nil
  | cons hblock _ ih =>
    rw [List.flatMap_cons, List.flatten_cons, pagesOf_append]
    exact List.rel_append (hblock.pagesOf_source (hmem _ (.head _)))
      (ih fun d hd => hmem d (.tail _ hd))

theorem forall₂_pagesOf_pagesWith {types : List Decl} (hmem : ∀ d ∈ types, d ∈ s.index.types)
    (h : WrittenAs (s.pagesWith types) ws) :
    List.Forall₂ s.ShowsCommon s.config.templates.common (pagesOf .common ws) ∧
    List.Forall₂ s.ShowsNamespace s.index.namespaces (pagesOf .ofNamespace ws) ∧
    List.Forall₂ s.ShowsPackage s.index.packages (pagesOf .ofPackage ws) ∧
    List.Forall₂ s.ShowsClass types (pagesOf .ofClass ws) ∧
    List.Forall₂ s.ShowsSource
      (types.flatMap fun d => s.index.sources.filter fun q => q.1.name == d.name)
      (pagesOf .ofSource ws) := by
  obtain ⟨commons, namespaces, packages, blocks, rfl, hcommons, hnamespaces, hpackages,
    hblocks⟩ := exists_parts hmem h
  replace hcommons := forall₂_commonPages hcommons
  replace hnamespaces := forall₂_namespacePages hnamespaces
  replace hpackages := forall₂_packagePages hpackages
  have hheads (sort : PageSort) := pagesOf_eq_ite sort hcommons fun _ _ h => h.sort
  have hnames (sort : PageSort) := pagesOf_eq_ite sort hnamespaces fun _ _ h => h.sort
  have hgroups (sort : PageSort) := pagesOf_eq_ite sort hpackages fun _ _ h => h.sort
  -- the pages of types are of two other sorts
  have htypes : ∀ sort : PageSort, sort ≠ .ofClass → sort ≠ .ofSource →
      pagesOf sort blocks.flatten = [] := by
    intro sort hclass hsource
    refine pagesOf_eq_nil fun w hw heq => ?_
    obtain ⟨block, hblock, hw⟩ := List.mem_flatten.1 hw
    obtain ⟨d, -, h⟩ := exists_of_forall₂ hblocks hblock
    rcases h.sort_cases hw with h | h
    · exact hclass (heq.symm.trans h)
    · exact hsource (heq.symm.trans h)
  simp only [pagesOf_append, hheads, hnames, hgroups, htypes, ne_eq, reduceCtorEq,
    not_false_eq_true, if_true, if_false, List.nil_append, List.append_nil]
  exact ⟨hcommons, hnamespaces, hpackages, forall₂_pagesOf_class hblocks,
    forall₂_pagesOf_source hblocks hmem⟩

theorem forall₂_pagesOf (h : WrittenAs s.pages ws) :
    List.Forall₂ s.ShowsCommon s.config.templates.common (pagesOf .common ws) ∧
    List.Forall₂ s.ShowsNamespace s.index.namespaces (pagesOf .ofNamespace ws) ∧
    List.Forall₂ s.ShowsPackage s.index.packages (pagesOf .ofPackage ws) ∧
    List.Forall₂ s.ShowsClass s.index.types (pagesOf .ofClass ws) ∧
    List.Forall₂ s.ShowsSource s.index.sources (pagesOf .ofSource ws) := by
  have hall := forall₂_pagesOf_pagesWith (fun _ hd => hd) (s.pages_eq_pagesWith ▸ h)
  rwa [flatMap_sources] at hall

/-- A run from a fresh start that ends without an error has listed every type where it belongs, and
nowhere else, in the contexts that it gave to the engine. -/
theorem coverage_of_generate {σ : Type} {r r' : Run σ} {e : Engine σ} {h : Highlighter}
    {output : Path} (hfresh : r.written = []) (hok : s.generate e h output r = (r', none)) :
    s.Coverage r'.written ∧
      ∃ r₁, Run.Renders e output (s.copied output r).1 r'.written r₁ := by
  have hrenders : ∃ r₁, Run.Renders e output (s.copied output r).1 r'.written r₁ :=
    renders_of_generate hok (by rw [hfresh, List.nil_append])
  refine ⟨?_, hrenders⟩
  obtain ⟨ws, hwritten, hws⟩ := writtenAs_of_generate hok
  obtain rfl : r'.written = ws := by rw [hwritten, hfresh, List.nil_append]
  obtain ⟨hcommon, hnamespace, hpackage, hclass, -⟩ := forall₂_pagesOf hws
  have hnamespaces : s.CoversGroups (pagesOf .ofNamespace r'.written) Decl.ns Decl.package
      TypeView.shortName PageContext.ns PageContext.packages :=
    coversGroups_of_forall₂ (fun d v hv => (TypeView.of_fields hv).2.1)
      (hnamespace.imp fun g w h => ⟨h.ns, h.packages, h.types⟩)
  have hpackages : s.CoversGroups (pagesOf .ofPackage r'.written) Decl.package Decl.ns
      TypeView.name PageContext.package PageContext.namespaces :=
    coversGroups_of_forall₂ (fun d v hv => (TypeView.of_fields hv).1)
      (hpackage.imp fun g w h => ⟨h.package, h.namespaces, h.types⟩)
  constructor
  case common_links => exact map_eq_of_forall₂ hcommon fun entry w h => h.link
  case common =>
    intro w hw
    obtain ⟨entry, -, hshows⟩ := exists_of_forall₂ hcommon hw
    exact covers_of_partition hshows.types (Index.types_perm s.model)
      (fun d v hv => (TypeView.of_fields hv).1) (Index.pairwise_types s.model.types)
  case namespaces => exact hnamespaces
  case package_of_namespace =>
    intro w hw name hname package
    obtain ⟨g, -, hshows⟩ := exists_of_forall₂ hnamespace hw
    have hnames := hnamespaces.related w hw name hname
    rw [hshows.package, ← hshows.packages, onlyName?_eq_some_iff hnames.nodup]
    exact forall_congr' fun p => by rw [hnames.mem_iff]
  case packages => exact hpackages
  case classes => exact ⟨s.index.types, Index.types_perm s.model, hclass⟩
  case ns_ne =>
    exact fun w hw v hv => hnamespaces.key_ne (fun d v hv => (TypeView.of_fields hv).2.2.1) hw hv
  case package_ne =>
    exact fun w hw v hv =>
      hpackages.key_ne (fun d v hv => (TypeView.of_fields hv).2.2.2.1) hw hv

theorem coverage_of_generate_small : ∃ r', freshRun.written = [] ∧
    small.generate blank .plain ⟨"out"⟩ freshRun = (r', none) ∧ small.Coverage r'.written ∧
    ∃ r₁, Run.Renders blank ⟨"out"⟩ (small.copied ⟨"out"⟩ freshRun).1 r'.written r₁ := by
  refine ⟨_, rfl, Prod.ext rfl generate_small_eq_none, ?_⟩
  exact coverage_of_generate rfl (Prod.ext rfl generate_small_eq_none)

end Site
end DocSite
