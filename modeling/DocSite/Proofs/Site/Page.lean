import DocSite.Proofs.Site.Index
import DocSite.Proofs.Site.View
import DocSite.Site.Page

namespace DocSite

namespace PageContext

def typeViews (c : PageContext) : List TypeView :=
  c.types.all ++ (c.cls.map ClassView.types).getD []

def memberViews (c : PageContext) : List MemberView := (c.cls.map ClassView.members).getD []

end PageContext

namespace Site

variable {s : Site} {page : Page} {g : Group} {d : Decl} {file : Path} {context : PageContext}

inductive Plans (s : Site) (page : Page) : Prop
  | common {types : Partition} {name : String} {template : Path}
      (htypes : s.partition s.index.types = .ok types)
      (hname : (name, template) ∈ s.config.templates.common)
      (hpage : page = {
        sort := .common, template, link := name
        context := { s.baseContext s.index with types } })
  | ofNamespace {g : Group} (hg : g ∈ s.index.namespaces)
      (hpage : s.namespacePage s.index g = .ok page)
  | ofPackage {g : Group} (hg : g ∈ s.index.packages)
      (hpage : s.packagePage s.index g = .ok page)
  | ofClass {d : Decl} (hd : d ∈ s.index.types) (hpage : s.classPage s.index d = .ok page)
  | ofSource {d : Decl} {file : Path} {above : Page} (hd : d ∈ s.index.types)
      (habove : s.classPage s.index d = .ok above) (hfile : d.sourceFile? = some file)
      (hpage : s.sourcePage d above file = .ok page)

theorem plans_of_mem_pages (h : .ok page ∈ s.pages) : s.Plans page := by
  unfold pages at h
  simp only [List.mem_append, List.mem_map, List.mem_flatMap] at h
  rcases h with ((h | ⟨g, hg, h⟩) | ⟨g, hg, h⟩) | ⟨d, hd, h⟩
  · unfold commonPages at h
    split at h
    · simp at h
    split at h
    · simp at h
    · rename_i types htypes
      obtain ⟨⟨name, template⟩, hname, h⟩ := List.mem_map.1 h
      exact .common htypes hname (Except.ok.inj h).symm
  · exact .ofNamespace hg h
  · exact .ofPackage hg h
  · unfold typePages at h
    split at h
    · simp at h
    · rename_i above habove
      rcases List.mem_cons.1 h with h | h
      · exact .ofClass hd (by rw [habove, h])
      · obtain ⟨⟨p, file⟩, hp, h⟩ := List.mem_map.1 h
        obtain ⟨hp, hname⟩ := List.mem_filter.1 hp
        obtain ⟨hmem, hfile⟩ := Index.mem_sourcesFrom hp
        -- names are distinct, so the file is that of the type itself
        obtain rfl := Index.eq_of_name_eq hmem hd (by simpa using hname)
        exact .ofSource hd habove hfile h

theorem partition_eq_ok {types : List Decl} {p : Partition} (h : s.partition types = .ok p)
    {v : TypeView} (hv : v ∈ p.all) : ∃ d ∈ types, TypeView.of s.links d = .ok v :=
  Partition.of_eq_ok (mapError_eq_ok.1 h) hv

theorem namespacePage_eq_ok (h : s.namespacePage s.index g = .ok page) :
    s.links.namespacePage g.name = .ok page.link ∧ page.sort = .ofNamespace ∧
      ∃ types, s.partition g.types = .ok types ∧ page.context = { s.baseContext s.index with
        namespaces := s.index.relatedNamespaces g.name, packages := g.related, ns := some g.name,
        package := onlyName? g.related, types } := by
  obtain ⟨types, htypes, h⟩ := bind_eq_ok.1 h
  obtain ⟨link, hlink, h⟩ := bind_eq_ok.1 h
  obtain rfl := Except.ok.inj h
  exact ⟨mapError_eq_ok.1 hlink, rfl, types, htypes, rfl⟩

theorem packagePage_eq_ok (h : s.packagePage s.index g = .ok page) :
    s.links.packagePage g.name = .ok page.link ∧ page.sort = .ofPackage ∧
      ∃ types, s.partition g.types = .ok types ∧ page.context = { s.baseContext s.index with
        namespaces := g.related, packages := [g.name], package := some g.name, types } := by
  obtain ⟨types, htypes, h⟩ := bind_eq_ok.1 h
  obtain ⟨link, hlink, h⟩ := bind_eq_ok.1 h
  obtain rfl := Except.ok.inj h
  exact ⟨mapError_eq_ok.1 hlink, rfl, types, htypes, rfl⟩

theorem classPage_eq_ok (h : s.classPage s.index d = .ok page) :
    s.links.typePage d = .ok page.link ∧ page.sort = .ofClass ∧
      s.classContext s.index d = .ok page.context := by
  obtain ⟨context, hcontext, h⟩ := bind_eq_ok.1 h
  obtain ⟨link, hlink, h⟩ := bind_eq_ok.1 h
  obtain rfl := Except.ok.inj h
  exact ⟨mapError_eq_ok.1 hlink, rfl, hcontext⟩

theorem sourcePage_eq_ok {above : Page} (h : s.sourcePage d above file = .ok page)
    (hfile : d.sourceFile? = some file) : s.links.sourcePage file = .ok page.link ∧
      page.sort = .ofSource ∧
      page.context = { above.context with fileName := some (s.model.relativePath file) } := by
  obtain ⟨link, hlink, h⟩ := bind_eq_ok.1 h
  obtain rfl := Except.ok.inj h
  obtain ⟨source, hsource, rfl⟩ := Links.sourceLink_eq_ok hfile (mapError_eq_ok.1 hlink)
  refine ⟨?_, rfl, rfl⟩
  simpa [Links.lineMark] using hsource

theorem classContext_eq_ok (h : s.classContext s.index d = .ok context) :
    ∃ tree cls types, s.index.ancestry d = .ok tree ∧
      ClassView.of s.links d tree (s.index.subclasses d) (s.index.implementers d) = .ok cls ∧
      s.partition [d] = .ok types ∧ context = { s.baseContext s.index with
        namespaces := if d.inNamespace then s.index.relatedNamespaces d.ns else []
        packages := if d.package = "" then [] else [d.package]
        ns := if d.inNamespace then some d.ns else none
        package := if d.package = "" then none else some d.package
        types
        cls := some cls } := by
  obtain ⟨tree, htree, h⟩ := bind_eq_ok.1 h
  obtain ⟨cls, hcls, h⟩ := bind_eq_ok.1 h
  obtain ⟨types, htypes, h⟩ := bind_eq_ok.1 h
  exact ⟨tree, cls, types, mapError_eq_ok.1 htree, mapError_eq_ok.1 hcls, htypes,
    (Except.ok.inj h).symm⟩

/-- A page has a configured name, or a link that was made from a pattern. -/
theorem Plans.link (h : s.Plans page) :
    (page.sort = .common → page.link ∈ s.config.templates.common.keys) ∧
      (page.sort ≠ .common → s.links.Fills page.link) := by
  cases h with
  | common htypes hname hpage =>
    subst hpage
    exact ⟨fun _ => List.mem_map.2 ⟨_, hname, rfl⟩, fun h => absurd rfl h⟩
  | ofNamespace hg hpage =>
    obtain ⟨hlink, hsort, -⟩ := namespacePage_eq_ok hpage
    exact ⟨by simp [hsort], fun _ => Links.page_eq_ok hlink (no_separator_groupToken _)⟩
  | ofPackage hg hpage =>
    obtain ⟨hlink, hsort, -⟩ := packagePage_eq_ok hpage
    exact ⟨by simp [hsort], fun _ => Links.page_eq_ok hlink (no_separator_groupToken _)⟩
  | ofClass hd hpage =>
    obtain ⟨hlink, hsort, -⟩ := classPage_eq_ok hpage
    exact ⟨by simp [hsort], fun _ => Links.page_eq_ok hlink (no_separator_tokenOf _)⟩
  | ofSource hd habove hfile hpage =>
    obtain ⟨hlink, hsort, -⟩ := sourcePage_eq_ok hpage hfile
    exact ⟨by simp [hsort], fun _ => Links.sourcePage_fills hlink⟩

/-- What a page shows comes from the index. -/
structure Shows (s : Site) (c : PageContext) : Prop where
  typeView : ∀ v ∈ c.typeViews, ∃ d ∈ s.index.types, TypeView.of s.links d = .ok v
  memberView : ∀ v ∈ c.memberViews, ∃ d ∈ s.index.types, ∃ m ∈ d.members,
    c.cls.map (·.info.name) = some d.name ∧ MemberView.of s.links d m = .ok v
  namespaceName : ∀ name, name ∈ c.namespaces ∨ c.ns = some name → name ∈ s.index.namespaceNames
  packageName : ∀ name, name ∈ c.packages ∨ c.package = some name → name ∈ s.index.packageNames

theorem onlyName?_eq_some {names : List String} {name : String}
    (h : onlyName? names = some name) : name ∈ names := by
  unfold onlyName? at h
  split at h
  · simp [← Option.some.inj h]
  · simp at h

/-- A page that is not about one type shows what its partition and its names say. -/
theorem shows_of_partition {types : List Decl} (hcls : context.cls = none)
    (htypes : s.partition types = .ok context.types) (hmem : ∀ d ∈ types, d ∈ s.index.types)
    (hns : ∀ name, name ∈ context.namespaces ∨ context.ns = some name →
      name ∈ s.index.namespaceNames)
    (hpackage : ∀ name, name ∈ context.packages ∨ context.package = some name →
      name ∈ s.index.packageNames) : s.Shows context := by
  refine ⟨fun v hv => ?_, fun v hv => ?_, hns, hpackage⟩
  · simp only [PageContext.typeViews, hcls, Option.map_none, Option.getD_none,
      List.append_nil] at hv
    obtain ⟨d, hd, hof⟩ := partition_eq_ok htypes hv
    exact ⟨d, hmem d hd, hof⟩
  · simp [PageContext.memberViews, hcls] at hv

theorem mem_related_namespaces (hg : g ∈ s.index.namespaces) {name : String}
    (h : name ∈ g.related) : name ∈ s.index.packageNames :=
  Index.mem_packageNames.2 ((Index.mem_group hg).2 name h)

theorem mem_related_packages (hg : g ∈ s.index.packages) {name : String}
    (h : name ∈ g.related) : name ∈ s.index.namespaceNames :=
  Index.mem_namespaceNames.2 ((Index.mem_group hg).2 name h)

theorem shows_classContext (hd : d ∈ s.index.types)
    (h : s.classContext s.index d = .ok context) : s.Shows context := by
  obtain ⟨tree, cls, types, htree, hcls, htypes, rfl⟩ := classContext_eq_ok h
  obtain ⟨hinfo, hviews, hmembers⟩ := ClassView.of_eq_ok hcls
  constructor
  case typeView =>
    intro v hv
    simp only [PageContext.typeViews, Option.map_some, Option.getD_some, List.mem_append] at hv
    rcases hv with hv | hv
    · -- the partition of a page about one type holds just that type
      obtain ⟨p, hp, hof⟩ := partition_eq_ok htypes hv
      obtain rfl := List.mem_singleton.1 hp
      exact ⟨p, hd, hof⟩
    · obtain ⟨p, hp, hof⟩ := hviews v hv
      refine ⟨p, ?_, hof⟩
      simp only [List.mem_cons, List.mem_append] at hp
      rcases hp with rfl | (hp | hp) | hp
      · exact hd
      · exact Index.mem_of_mem_ancestry hd htree hp
      · exact Index.mem_of_mem_subclasses hp
      · exact Index.mem_of_mem_implementers hp
  case memberView =>
    intro v hv
    obtain ⟨m, hm, hof⟩ := hmembers v hv
    exact ⟨d, hd, m, hm, by simp [(TypeView.of_eq_ok hinfo).2.2], hof⟩
  case namespaceName =>
    intro name hname
    have hns : d.inNamespace = true → d.ns ∈ s.index.namespaceNames := fun h =>
      Index.mem_namespaceNames.2 ⟨by simpa [Decl.inNamespace] using h, d, hd, rfl⟩
    by_cases hin : d.inNamespace = true
    · simp only [hin, if_true, Option.some.injEq] at hname
      rcases hname with hname | rfl
      · exact Index.mem_of_mem_relatedNamespaces hname
      · exact hns hin
    · simp [hin] at hname
  case packageName =>
    intro name hname
    by_cases hpackage : d.package = ""
    · simp [hpackage] at hname
    · simp only [hpackage, if_false, List.mem_singleton, Option.some.injEq] at hname
      have heq : d.package = name := hname.elim Eq.symm id
      exact Index.mem_packageNames.2 ⟨heq ▸ hpackage, d, hd, heq⟩

theorem Plans.shows (h : s.Plans page) : s.Shows page.context := by
  cases h with
  | common htypes hname hpage =>
    subst hpage
    exact shows_of_partition rfl htypes (fun _ h => h) (by simp [baseContext])
      (by simp [baseContext])
  | @ofNamespace g hg hpage =>
    obtain ⟨-, -, types, htypes, hcontext⟩ := namespacePage_eq_ok hpage
    rw [hcontext]
    refine shows_of_partition rfl htypes (Index.mem_group hg).1 (fun name hname => ?_)
      fun name hname => ?_
    · rcases hname with hname | hname
      · exact Index.mem_of_mem_relatedNamespaces hname
      · obtain rfl := Option.some.inj hname
        exact List.mem_map.2 ⟨g, hg, rfl⟩
    · exact mem_related_namespaces hg (hname.elim id onlyName?_eq_some)
  | @ofPackage g hg hpage =>
    obtain ⟨-, -, types, htypes, hcontext⟩ := packagePage_eq_ok hpage
    rw [hcontext]
    refine shows_of_partition rfl htypes (Index.mem_group hg).1 (fun name hname => ?_)
      fun name hname => ?_
    · exact mem_related_packages hg (hname.elim id (by simp [baseContext]))
    · have heq : g.name = name :=
        hname.elim (fun h => (List.mem_singleton.1 h).symm) Option.some.inj
      exact List.mem_map.2 ⟨g, hg, heq⟩
  | ofClass hd hpage => exact shows_classContext hd (classPage_eq_ok hpage).2.2
  | ofSource hd habove hfile hpage =>
    rw [(sourcePage_eq_ok hpage hfile).2.2]
    obtain ⟨htypes, hmembers, hns, hpackage⟩ :=
      shows_classContext hd (classPage_eq_ok habove).2.2
    exact ⟨htypes, hmembers, hns, hpackage⟩

end Site
end DocSite
