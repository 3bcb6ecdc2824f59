import DocSite.Proofs.Site.Ancestry
import DocSite.Proofs.Site.Closure

namespace DocSite

namespace Links

variable {l : Links} {d : Decl} {m : Member} {kind : PageKind} {withLine : Bool}

theorem exists_page {pattern : String} (h : l.filenames.get? kind = some pattern) (token : String) :
    ∃ link, l.page kind token = .ok link := by
  rw [page, h]
  exact ⟨_, rfl⟩

theorem page_eq_error (h : l.filenames.get? kind = none) (token : String) :
    l.page kind token = .error ⟨kind⟩ := by
  rw [page, h]

theorem exists_sourceLine {pattern : String} (h : l.filenames.get? .sourcePage = some pattern)
    (file : Path) (line : Option Nat) : ∃ link, l.sourceLine file line = .ok link := by
  obtain ⟨page, hpage⟩ := exists_page h (tokenOf (l.sourceRoot.relativeTo file))
  rw [sourceLine, sourcePage, mirrorPage, hpage]
  cases line <;> exact ⟨_, rfl⟩

theorem sourceLine_eq_error (h : l.filenames.get? .sourcePage = none) (file : Path)
    (line : Option Nat) : l.sourceLine file line = .error ⟨.sourcePage⟩ := by
  rw [sourceLine, sourcePage, mirrorPage, page_eq_error h]
  rfl

theorem exists_sourceLink {pattern : String} (h : l.filenames.get? .sourcePage = some pattern)
    (d : Decl) (withLine : Bool) :
    ∃ link, l.sourceLink d withLine = .ok link := by
  unfold sourceLink
  split
  · exact exists_sourceLine h _ _
  · exact ⟨_, by rw [external, h]⟩

/-- A type that is documented elsewhere is refused like one that has a source page. -/
theorem sourceLink_eq_error (h : l.filenames.get? .sourcePage = none) :
    l.sourceLink d withLine = .error ⟨.sourcePage⟩ := by
  unfold sourceLink
  split
  · exact sourceLine_eq_error h _ _
  · rw [external, h]

theorem exists_memberSourceLink {pattern : String}
    (h : l.filenames.get? .sourcePage = some pattern) (d : Decl) (m : Member) :
    ∃ link, l.memberSourceLink d m = .ok link := by
  unfold memberSourceLink
  split
  · exact exists_sourceLine h _ _
  · exact ⟨_, by rw [external, h]⟩

/-- The first kind of page that every view needs and that has no pattern. -/
def viewLack? (l : Links) : Option PageKind :=
  [.classPage, .sourcePage].find? fun kind => (l.filenames.get? kind).isNone

theorem viewLack?_eq_none (h : l.viewLack? = none) :
    (∃ pattern, l.filenames.get? .classPage = some pattern) ∧
      ∃ pattern, l.filenames.get? .sourcePage = some pattern := by
  simpa [viewLack?, Option.ne_none_iff_exists'] using h

theorem viewLack?_eq_some (h : l.viewLack? = some kind) : l.filenames.get? kind = none ∧
    (kind = .classPage ∨ kind = .sourcePage ∧
      ∃ pattern, l.filenames.get? .classPage = some pattern) := by
  unfold viewLack? at h
  cases hclass : l.filenames.get? .classPage with
  | none =>
    obtain rfl : .classPage = kind := by simpa [hclass] using h
    exact ⟨hclass, .inl rfl⟩
  | some pattern =>
    cases hsource : l.filenames.get? .sourcePage with
    | none =>
      obtain rfl : .sourcePage = kind := by simpa [hclass, hsource] using h
      exact ⟨hsource, .inr ⟨rfl, pattern, rfl⟩⟩
    | some other => simp [hclass, hsource] at h

end Links

section Views

variable {l : Links} {d : Decl} {kind : PageKind} {types tree subclasses implementers : List Decl}

theorem exists_typeView (h : l.viewLack? = none) (d : Decl) : ∃ v, TypeView.of l d = .ok v := by
  obtain ⟨⟨_, hclass⟩, ⟨_, hsource⟩⟩ := Links.viewLack?_eq_none h
  obtain ⟨link, hlink⟩ := Links.exists_page hclass (tokenOf d.name)
  obtain ⟨source, hsource⟩ := Links.exists_sourceLink hsource d true
  rw [TypeView.of, Links.typePage, Links.classPage, hlink, hsource]
  exact ⟨_, rfl⟩

theorem typeView_eq_error (h : l.viewLack? = some kind) (d : Decl) :
    TypeView.of l d = .error ⟨kind⟩ := by
  rw [TypeView.of, Links.typePage, Links.classPage]
  obtain ⟨hnone, rfl | ⟨rfl, pattern, hclass⟩⟩ := Links.viewLack?_eq_some h
  · rw [Links.page_eq_error hnone]
    rfl
  · obtain ⟨link, hlink⟩ := Links.exists_page hclass (tokenOf d.name)
    rw [hlink, Links.sourceLink_eq_error hnone]
    rfl

theorem exists_memberView (h : l.viewLack? = none) (d : Decl) (m : Member) :
    ∃ v, MemberView.of l d m = .ok v := by
  obtain ⟨⟨_, hclass⟩, ⟨_, hsource⟩⟩ := Links.viewLack?_eq_none h
  obtain ⟨link, hlink⟩ := Links.exists_page hclass (tokenOf d.name)
  obtain ⟨source, hsource⟩ := Links.exists_memberSourceLink hsource d m
  rw [MemberView.of, Links.memberLink, Links.typePage, Links.classPage, hlink, hsource]
  exact ⟨_, rfl⟩

theorem exists_classView (h : l.viewLack? = none) :
    ∃ v, ClassView.of l d tree subclasses implementers = .ok v := by
  obtain ⟨info, hinfo⟩ := exists_typeView h d
  have htypes := exists_mapM_eq_ok (exists_typeView h)
  have hmembers := exists_mapM_eq_ok (exists_memberView h d)
  obtain ⟨_, htree⟩ := htypes tree
  obtain ⟨_, hsub⟩ := htypes subclasses
  obtain ⟨_, himpl⟩ := htypes implementers
  obtain ⟨_, hconstants⟩ := hmembers (d.membersOf .constant)
  obtain ⟨_, hproperties⟩ := hmembers (d.membersOf .property)
  obtain ⟨_, hmethods⟩ := hmembers (d.membersOf .method)
  rw [ClassView.of, hinfo, htree, hsub, himpl, hconstants, hproperties, hmethods]
  exact ⟨_, rfl⟩

theorem classView_eq_error (h : l.viewLack? = some kind) :
    ClassView.of l d tree subclasses implementers = .error ⟨kind⟩ := by
  rw [ClassView.of, typeView_eq_error h]
  rfl

end Views

/-- Whether a model has anything for which pages of a kind are needed. -/
def Model.Needs (m : Model) : PageKind → Prop
  | .classPage | .sourcePage => m.types ≠ []
  | .namespacePage => ∃ d ∈ m.types, d.ns ≠ ""
  | .packagePage => ∃ d ∈ m.types, d.package ≠ ""

instance (m : Model) : (kind : PageKind) → Decidable (m.Needs kind)
  | .classPage | .sourcePage => inferInstanceAs (Decidable (m.types ≠ []))
  | .namespacePage => inferInstanceAs (Decidable (∃ d ∈ m.types, d.ns ≠ ""))
  | .packagePage => inferInstanceAs (Decidable (∃ d ∈ m.types, d.package ≠ ""))

theorem Index.groupBy_ne_nil_iff {key other order : Decl → String} {types : List Decl} :
    Index.groupBy key other order types ≠ [] ↔ ∃ d ∈ types, key d ≠ "" := by
  constructor
  · intro h
    obtain ⟨g, hg⟩ := List.exists_mem_of_ne_nil _ h
    obtain ⟨hname, d, hd, hkey⟩ := Index.mem_names_groupBy.1 (List.mem_map_of_mem hg)
    exact ⟨d, hd, hkey ▸ hname⟩
  · rintro ⟨d, hd, hkey⟩
    obtain ⟨g, hg, -⟩ := List.mem_map.1 (Index.mem_names_groupBy.2 ⟨hkey, d, hd, rfl⟩)
    exact List.ne_nil_of_mem hg

namespace Site

variable {s : Site} {g : Group} {d : Decl} {kind : PageKind} {types : List Decl}

def Lacks (s : Site) (kind : PageKind) : Prop :=
  s.model.Needs kind ∧ s.links.filenames.get? kind = none

instance (s : Site) (kind : PageKind) : Decidable (s.Lacks kind) :=
  inferInstanceAs (Decidable (_ ∧ _))

/-- The first kind of page, in the order in which they come up, of which the pattern is needed and
missing. -/
def firstLack? (s : Site) : Option PageKind :=
  [.classPage, .sourcePage, .namespacePage, .packagePage].find? fun kind => s.Lacks kind

def fault? : PlannedPage → Option SiteError
  | .error cause => some cause
  | .ok _ => none

def firstFault? (pages : List PlannedPage) : Option SiteError := pages.findSome? fault?

theorem exists_partition (h : s.links.viewLack? = none) (types : List Decl) :
    ∃ p, s.partition types = .ok p := by
  obtain ⟨views, hviews⟩ := exists_mapM_eq_ok (exists_typeView h) types
  rw [partition, Partition.of, hviews]
  exact ⟨_, rfl⟩

theorem partition_eq_error (h : s.links.viewLack? = some kind) (hne : types ≠ []) :
    s.partition types = .error (.missingFilename ⟨kind⟩) := by
  obtain ⟨d, types, rfl⟩ := List.exists_cons_of_ne_nil hne
  rw [partition, Partition.of, mapM_cons_eq_error (typeView_eq_error h d)]
  rfl

/-- A page of which only the link can be missing lacks it just if the pattern is missing. -/
theorem fault?_link (kind : PageKind) (token : String) (f : String → Page) :
    fault? ((s.links.page kind token).mapError .missingFilename >>= fun link => .ok (f link)) =
      if s.links.filenames.get? kind = none then some (.missingFilename ⟨kind⟩) else none := by
  split
  · rename_i hnone
    rw [Links.page_eq_error hnone]
    rfl
  · rename_i hsome
    obtain ⟨pattern, hpattern⟩ := Option.ne_none_iff_exists'.1 hsome
    obtain ⟨link, hlink⟩ := Links.exists_page hpattern token
    rw [hlink]
    rfl

theorem fault?_namespacePage (h : s.links.viewLack? = none) (g : Group) :
    fault? (s.namespacePage s.index g) = if s.links.filenames.get? .namespacePage = none
      then some (.missingFilename ⟨.namespacePage⟩) else none := by
  obtain ⟨p, hp⟩ := exists_partition h g.types
  rw [namespacePage, hp]
  exact fault?_link .namespacePage (groupToken g.name) _

theorem fault?_packagePage (h : s.links.viewLack? = none) (g : Group) :
    fault? (s.packagePage s.index g) = if s.links.filenames.get? .packagePage = none
      then some (.missingFilename ⟨.packagePage⟩) else none := by
  obtain ⟨p, hp⟩ := exists_partition h g.types
  rw [packagePage, hp]
  exact fault?_link .packagePage (groupToken g.name) _

theorem exists_classPage {tree : List Decl} (h : s.links.viewLack? = none)
    (htree : s.index.ancestry d = .ok tree) : ∃ page, s.classPage s.index d = .ok page := by
  obtain ⟨⟨_, hclass⟩, -⟩ := Links.viewLack?_eq_none h
  obtain ⟨link, hlink⟩ := Links.exists_page hclass (tokenOf d.name)
  obtain ⟨p, hp⟩ := exists_partition h [d]
  obtain ⟨cls, hcls⟩ : ∃ cls, ClassView.of s.links d tree (s.index.subclasses d)
      (s.index.implementers d) = .ok cls := exists_classView h
  have hcontext : ∃ context, s.classContext s.index d = .ok context :=
    ⟨_, bind_eq_ok.2 ⟨tree, mapError_eq_ok.2 htree,
      bind_eq_ok.2 ⟨cls, mapError_eq_ok.2 hcls, bind_eq_ok.2 ⟨p, hp, rfl⟩⟩⟩⟩
  obtain ⟨context, hcontext⟩ := hcontext
  exact ⟨_, bind_eq_ok.2 ⟨context, hcontext, bind_eq_ok.2 ⟨link, mapError_eq_ok.2 hlink, rfl⟩⟩⟩

theorem classPage_eq_error {tree : List Decl} (h : s.links.viewLack? = some kind)
    (htree : s.index.ancestry d = .ok tree) :
    s.classPage s.index d = .error (.missingFilename ⟨kind⟩) := by
  rw [classPage, classContext, htree]
  change ((ClassView.of s.links d tree _ _).mapError SiteError.missingFilename >>= _) >>= _ = _
  rw [classView_eq_error h]
  rfl

theorem classPage_eq_cycle {cycle : ParentCycle} (h : s.index.ancestry d = .error cycle) :
    s.classPage s.index d = .error (.parentCycle cycle) := by
  rw [classPage, classContext, h]
  rfl

theorem exists_sourcePage (h : s.links.viewLack? = none) (d : Decl) (above : Page) (file : Path) :
    ∃ page, s.sourcePage d above file = .ok page := by
  obtain ⟨-, ⟨_, hsource⟩⟩ := Links.viewLack?_eq_none h
  obtain ⟨link, hlink⟩ := Links.exists_sourceLink hsource d false
  exact ⟨_, bind_eq_ok.2 ⟨link, mapError_eq_ok.2 hlink, rfl⟩⟩

/-- The fault is the expected one, unless some parent chain goes round and is the fault. -/
def FaultIs (s : Site) (expected fault : Option SiteError) : Prop :=
  fault = expected ∨ ¬s.model.Acyclic ∧ ∃ cycle, fault = some (.parentCycle cycle)

/-- Where each page has the expected fault, so has their list; an empty list has none. -/
theorem faultIs_firstFault? {expected : Option SiteError} {pages : List PlannedPage}
    (hne : expected ≠ none → pages ≠ []) (h : ∀ p ∈ pages, s.FaultIs expected (fault? p)) :
    s.FaultIs expected (firstFault? pages) := by
  induction pages with
  | nil => exact .inl (not_imp_comm.1 hne (by simp)).symm
  | cons p pages ih =>
    rw [firstFault?, List.findSome?_cons]
    rcases h p (.head _) with hp | ⟨hm, cycle, hp⟩
    · rw [hp]
      cases expected with
      | none => exact ih (by simp) fun q hq => h q (.tail _ hq)
      | some cause => exact .inl rfl
    · rw [hp]
      exact .inr ⟨hm, cycle, rfl⟩

theorem firstFault?_append (pages more : List PlannedPage) :
    firstFault? (pages ++ more) = (firstFault? pages).or (firstFault? more) :=
  List.findSome?_append

/-- The ancestors of a type are known unless some parent chain goes round. -/
theorem ancestry_cases (hd : d ∈ s.model.types) : (∃ tree, s.index.ancestry d = .ok tree) ∨
    ¬s.model.Acyclic ∧ ∃ cycle, s.index.ancestry d = .error cycle := by
  cases h : s.index.ancestry d with
  | ok tree => exact .inl ⟨tree, rfl⟩
  | error cycle =>
    refine .inr ⟨fun hm => ?_, cycle, rfl⟩
    obtain ⟨tree, htree⟩ := Index.exists_ancestry hm hd
    rw [index, htree] at h
    contradiction

theorem index_types_ne_nil : s.index.types ≠ [] ↔ s.model.types ≠ [] := by
  rw [← List.length_pos_iff, ← List.length_pos_iff, index, (Index.types_perm s.model).length_eq]

/-- The page of a type with a chain of ancestors is planned, together with its source page. -/
theorem fault?_typePages {tree : List Decl} (h : s.links.viewLack? = none)
    (htree : s.index.ancestry d = .ok tree) {p : PlannedPage}
    (hp : p ∈ s.typePages s.index s.index.sources d) : fault? p = none := by
  unfold typePages at hp
  obtain ⟨page, hpage⟩ := exists_classPage h htree
  rw [hpage] at hp
  rcases List.mem_cons.1 hp with rfl | hp
  · rfl
  · obtain ⟨⟨_, file⟩, -, rfl⟩ := List.mem_map.1 hp
    obtain ⟨source, hsource⟩ := exists_sourcePage h d page file
    rw [hsource]
    rfl

/-- The page of a type without one is not planned, and there is no source page. -/
theorem typePages_eq_cycle {cycle : ParentCycle} (h : s.index.ancestry d = .error cycle) :
    s.typePages s.index s.index.sources d = [.error (.parentCycle cycle)] := by
  rw [typePages, classPage_eq_cycle h]

/-- A page of a type that lacks nothing is planned unless some parent chain goes round. -/
theorem faultIs_typePages (h : s.links.viewLack? = none) (hd : d ∈ s.model.types)
    {p : PlannedPage} (hp : p ∈ s.typePages s.index s.index.sources d) :
    s.FaultIs none (fault? p) := by
  rcases ancestry_cases hd with ⟨tree, htree⟩ | ⟨hm, cycle, htree⟩
  · exact .inl (fault?_typePages h htree hp)
  · rw [typePages_eq_cycle htree] at hp
    obtain rfl := List.mem_singleton.1 hp
    exact .inr ⟨hm, cycle, rfl⟩

theorem firstFault?_commonPages (h : ∃ p, s.partition s.index.types = .ok p) :
    firstFault? (s.commonPages s.index) = none := by
  obtain ⟨p, hp⟩ := h
  unfold commonPages
  split
  · rfl
  · rw [hp]
    refine List.findSome?_eq_none_iff.2 fun p hp => ?_
    obtain ⟨_, -, rfl⟩ := List.mem_map.1 hp
    rfl

/-- Where groups are needed and their pattern is missing, the page of the first group lacks it. -/
theorem firstFault?_map {groups : List Group} {plan : Group → PlannedPage}
    (hneeds : s.model.Needs kind ↔ groups ≠ [])
    (hplan : ∀ g, fault? (plan g) = if s.links.filenames.get? kind = none
      then some (.missingFilename ⟨kind⟩) else none) :
    firstFault? (groups.map plan) =
      if s.Lacks kind then some (.missingFilename ⟨kind⟩) else none := by
  cases groups with
  | nil => simp [firstFault?, Lacks, hneeds]
  | cons g groups =>
    by_cases hnone : s.links.filenames.get? kind = none
    · simp [firstFault?, Lacks, hneeds, hplan, hnone]
    · simp [firstFault?, Lacks, hplan, hnone]

theorem needs_namespacePage : s.model.Needs .namespacePage ↔ s.index.namespaces ≠ [] := by
  simp only [Model.Needs, ← mem_index_types]
  exact Index.groupBy_ne_nil_iff.symm

theorem needs_packagePage : s.model.Needs .packagePage ↔ s.index.packages ≠ [] := by
  simp only [Model.Needs, ← mem_index_types]
  exact Index.groupBy_ne_nil_iff.symm

theorem FaultIs.or {fault more : Option SiteError} (h : s.FaultIs none more) :
    s.FaultIs fault (fault.or more) := by
  cases fault with
  | none => exact h
  | some cause => exact .inl rfl

/-- Where every view can be made, only the pattern for namespaces or for packages can be missing. -/
theorem faultIs_pages_of_views (h : s.links.viewLack? = none) :
    s.FaultIs (s.firstLack?.map fun kind => .missingFilename ⟨kind⟩) (firstFault? s.pages) := by
  have htypes : s.FaultIs none
      (firstFault? (s.index.types.flatMap (s.typePages s.index s.index.sources))) := by
    refine faultIs_firstFault? (by simp) fun p hp => ?_
    obtain ⟨d, hd, hp⟩ := List.mem_flatMap.1 hp
    exact faultIs_typePages h (mem_index_types.1 hd) hp
  have hlack : (s.firstLack?.map fun kind => SiteError.missingFilename ⟨kind⟩) =
      (if s.Lacks .namespacePage then some (.missingFilename ⟨.namespacePage⟩) else none).or
        (if s.Lacks .packagePage then some (.missingFilename ⟨.packagePage⟩) else none) := by
    obtain ⟨⟨_, hclass⟩, ⟨_, hsource⟩⟩ := Links.viewLack?_eq_none h
    have hclass : ¬s.Lacks .classPage := by simp [Lacks, hclass]
    have hsource : ¬s.Lacks .sourcePage := by simp [Lacks, hsource]
    by_cases hns : s.Lacks .namespacePage
    · simp [firstLack?, hclass, hsource, hns]
    · by_cases hpackage : s.Lacks .packagePage
      · simp [firstLack?, hclass, hsource, hns, hpackage]
      · simp [firstLack?, hclass, hsource, hns, hpackage]
  rw [hlack, pages, firstFault?_append, firstFault?_append, firstFault?_append,
    firstFault?_commonPages (exists_partition h _), Option.none_or,
    firstFault?_map needs_namespacePage (fault?_namespacePage h),
    firstFault?_map needs_packagePage (fault?_packagePage h)]
  exact htypes.or

/-- Where no view can be made, no page can be planned. -/
theorem faultIs_of_mem_pages (h : s.links.viewLack? = some kind) {p : PlannedPage}
    (hp : p ∈ s.pages) (hne : s.model.types ≠ []) :
    s.FaultIs (some (.missingFilename ⟨kind⟩)) (fault? p) := by
  have hnodup := Index.nodup_types s.model.types
  unfold pages at hp
  simp only [List.mem_append, List.mem_map, List.mem_flatMap] at hp
  rcases hp with ((hp | ⟨g, hg, rfl⟩) | ⟨g, hg, rfl⟩) | ⟨d, hd, hp⟩
  · unfold commonPages at hp
    split at hp
    · simp at hp
    · rw [partition_eq_error h (index_types_ne_nil.2 hne)] at hp
      obtain rfl := List.mem_singleton.1 hp
      exact .inl rfl
  · rw [namespacePage, partition_eq_error h (Index.gathers_of_mem hnodup hg).types_ne]
    exact .inl rfl
  · rw [packagePage, partition_eq_error h (Index.gathers_of_mem hnodup hg).types_ne]
    exact .inl rfl
  · unfold typePages at hp
    rcases ancestry_cases (mem_index_types.1 hd) with ⟨tree, htree⟩ | ⟨hm, cycle, htree⟩
    · rw [classPage_eq_error h htree] at hp
      obtain rfl := List.mem_singleton.1 hp
      exact .inl rfl
    · rw [classPage_eq_cycle htree] at hp
      obtain rfl := List.mem_singleton.1 hp
      exact .inr ⟨hm, cycle, rfl⟩

theorem firstLack?_of_viewLack (h : s.links.viewLack? = some kind) (hne : s.model.types ≠ []) :
    s.firstLack? = some kind := by
  obtain ⟨hnone, rfl | ⟨rfl, _, hclass⟩⟩ := Links.viewLack?_eq_some h
  · simp [firstLack?, Lacks, Model.Needs, hnone, hne]
  · simp [firstLack?, Lacks, Model.Needs, hnone, hne, hclass]

theorem firstLack?_of_no_types (hnil : s.model.types = []) : s.firstLack? = none := by
  simp [firstLack?, Lacks, Model.Needs, hnil]

/-- Without types there are only pages with fixed names, and these show no view. -/
theorem firstFault?_of_no_types (hnil : s.model.types = []) : firstFault? s.pages = none := by
  have htypes : s.index.types = [] := not_not.1 fun h => index_types_ne_nil.1 h hnil
  have hnamespaces : s.index.namespaces = [] :=
    not_not.1 fun h => by simpa [Model.Needs, hnil] using needs_namespacePage.2 h
  have hpackages : s.index.packages = [] :=
    not_not.1 fun h => by simpa [Model.Needs, hnil] using needs_packagePage.2 h
  rw [pages, hnamespaces, hpackages]
  simp only [htypes, List.map_nil, List.flatMap_nil, List.append_nil]
  exact firstFault?_commonPages (by rw [htypes]; exact ⟨_, rfl⟩)

/-- The first page that cannot be planned lacks the first pattern that is needed and missing, unless
some parent chain goes round. -/
theorem faultIs_pages (s : Site) :
    s.FaultIs (s.firstLack?.map fun kind => .missingFilename ⟨kind⟩) (firstFault? s.pages) := by
  cases h : s.links.viewLack? with
  | none => exact faultIs_pages_of_views h
  | some kind =>
    by_cases hnil : s.model.types = []
    · exact .inl (by rw [firstLack?_of_no_types hnil, firstFault?_of_no_types hnil]; rfl)
    · rw [firstLack?_of_viewLack h hnil]
      refine faultIs_firstFault? (fun _ => ?_) fun p hp => faultIs_of_mem_pages h hp hnil
      obtain ⟨d, hd⟩ := List.exists_mem_of_ne_nil _ (index_types_ne_nil.2 hnil)
      exact List.ne_nil_of_mem (classPage_mem_pages hd)

end Site
end DocSite
