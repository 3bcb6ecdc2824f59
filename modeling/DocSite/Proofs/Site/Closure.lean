import DocSite.Config.Document
import DocSite.Proofs.Site.Page
import DocSite.Proofs.Site.Run

namespace DocSite

variable {σ : Type} {s : Site} {r r' : Run σ} {output : Path} {e : Engine σ} {h : Highlighter}
variable {t : FileTree} {d : Decl} {page : Page} {name link : String} {file : Path}

/-- A page of this sort was written at the link, and its file is there in the end. -/
def Run.Wrote (r : Run σ) (output : Path) (sort : PageSort) (link : String) : Prop :=
  (∃ w ∈ r.written, w.sort = sort ∧ w.link = link) ∧ r.tree.isFile (output.join ⟨link⟩) = true

namespace Site

theorem classPage_mem_typePages :
    s.classPage s.index d ∈ s.typePages s.index s.index.sources d := by
  unfold typePages
  split
  · rename_i cause hpage
    rw [hpage]
    exact .head _
  · rename_i page hpage
    rw [hpage]
    exact .head _

theorem sourcePage_mem_typePages (hsource : (d, file) ∈ s.index.sources)
    (hpage : s.classPage s.index d = .ok page) :
    s.sourcePage d page file ∈ s.typePages s.index s.index.sources d := by
  rw [typePages, hpage]
  exact .tail _ (List.mem_map.2 ⟨(d, file), List.mem_filter.2 ⟨hsource, by simp⟩, rfl⟩)

theorem classPage_mem_pages (hd : d ∈ s.index.types) : s.classPage s.index d ∈ s.pages :=
  List.mem_append_right _ (List.mem_flatMap.2 ⟨d, hd, classPage_mem_typePages⟩)

theorem sourcePage_mem_pages (hd : d ∈ s.index.types) (hsource : (d, file) ∈ s.index.sources)
    (hpage : s.classPage s.index d = .ok page) : s.sourcePage d page file ∈ s.pages :=
  List.mem_append_right _ (List.mem_flatMap.2 ⟨d, hd, sourcePage_mem_typePages hsource hpage⟩)

theorem namespacePage_mem_pages {g : Group} (hg : g ∈ s.index.namespaces) :
    s.namespacePage s.index g ∈ s.pages :=
  List.mem_append_left _ (List.mem_append_left _ (List.mem_append_right _
    (List.mem_map.2 ⟨g, hg, rfl⟩)))

theorem packagePage_mem_pages {g : Group} (hg : g ∈ s.index.packages) :
    s.packagePage s.index g ∈ s.pages :=
  List.mem_append_left _ (List.mem_append_right _ (List.mem_map.2 ⟨g, hg, rfl⟩))

end Site

namespace Run.After

variable {c : Config}

/-- A planned page was planned without an error and is written. -/
theorem exists_wrote (hr : After output c t s.pages r) {p : PlannedPage} (hp : p ∈ s.pages) :
    ∃ page, p = .ok page ∧ r.Wrote output page.sort page.link := by
  obtain ⟨page, w, hpage, hw, source, hof⟩ := hr.complete p hp
  have hsort : w.sort = page.sort := by rw [hof]
  have hlink : w.link = page.link := by rw [hof]
  exact ⟨page, hpage, ⟨w, hw, hsort, hlink⟩, hlink ▸ hr.isFile w hw⟩

theorem wrote_class (hr : After output c t s.pages r) (hd : d ∈ s.index.types)
    (hlink : s.links.typePage d = .ok link) : r.Wrote output .ofClass link := by
  obtain ⟨page, hpage, hwrote⟩ := hr.exists_wrote (Site.classPage_mem_pages hd)
  obtain ⟨hpageLink, hsort, -⟩ := Site.classPage_eq_ok hpage
  obtain rfl := eq_of_eq_ok hpageLink hlink
  exact hsort ▸ hwrote

theorem exists_wrote_namespace (hr : After output c t s.pages r)
    (hname : name ∈ s.index.namespaceNames) :
    ∃ link, s.links.namespacePage name = .ok link ∧ r.Wrote output .ofNamespace link := by
  obtain ⟨g, hg, rfl⟩ := List.mem_map.1 hname
  obtain ⟨page, hpage, hwrote⟩ := hr.exists_wrote (Site.namespacePage_mem_pages hg)
  obtain ⟨hlink, hsort, -⟩ := Site.namespacePage_eq_ok hpage
  exact ⟨page.link, hlink, hsort ▸ hwrote⟩

theorem exists_wrote_package (hr : After output c t s.pages r)
    (hname : name ∈ s.index.packageNames) :
    ∃ link, s.links.packagePage name = .ok link ∧ r.Wrote output .ofPackage link := by
  obtain ⟨g, hg, rfl⟩ := List.mem_map.1 hname
  obtain ⟨page, hpage, hwrote⟩ := hr.exists_wrote (Site.packagePage_mem_pages hg)
  obtain ⟨hlink, hsort, -⟩ := Site.packagePage_eq_ok hpage
  exact ⟨page.link, hlink, hsort ▸ hwrote⟩

/-- The source page of a declaring file was written, maybe for another type and in another spelling
of the file. -/
theorem wrote_source (hr : After output c t s.pages r) (hd : d ∈ s.index.types)
    (hfile : d.sourceFile? = some file) (hlink : s.links.sourcePage file = .ok link) :
    r.Wrote output .ofSource link := by
  -- the first type that is declared in the file has its source page planned
  obtain ⟨⟨first, spelling⟩, hmem, hsame⟩ := Index.exists_mem_sources hd hfile
  obtain ⟨hfirst, hspelling⟩ := Index.mem_sourcesFrom hmem
  obtain ⟨above, habove, -⟩ := hr.exists_wrote (Site.classPage_mem_pages hfirst)
  obtain ⟨page, hpage, hwrote⟩ :=
    hr.exists_wrote (Site.sourcePage_mem_pages hfirst hmem habove)
  obtain ⟨hpageLink, hsort, -⟩ := Site.sourcePage_eq_ok hpage hspelling
  rw [Links.sourcePage_eq_of_samePlace hsame] at hpageLink
  obtain rfl := eq_of_eq_ok hpageLink hlink
  exact hsort ▸ hwrote

theorem shows (hr : After output c t s.pages r) {w : WrittenPage} (hw : w ∈ r.written) :
    s.Shows w.context := by
  obtain ⟨page, hpage, source, rfl⟩ := hr.planned w hw
  obtain ⟨htypes, hmembers, hns, hpackage⟩ := (Site.plans_of_mem_pages hpage).shows
  exact ⟨htypes, hmembers, hns, hpackage⟩

end Run.After

/-- No link dangles. In a run that ends without an error, every type that a page shows has its page
written, and so have the namespaces and packages that it names; and the source of every type or
member with a declaring file is a source page that was written, up to the mark of its line. -/
theorem Site.links_of_generate (hsorted : r.tree.Sorted) (hfresh : r.written = [])
    (hok : s.generate e h output r = (r', none)) {w : WrittenPage} (hwritten : w ∈ r'.written) :
    (∀ v ∈ w.context.typeViews, r'.Wrote output .ofClass v.link) ∧
    (∀ name, name ∈ w.context.namespaces ∨ w.context.ns = some name →
      ∃ link, s.links.namespacePage name = .ok link ∧ r'.Wrote output .ofNamespace link) ∧
    (∀ name, name ∈ w.context.packages ∨ w.context.package = some name →
      ∃ link, s.links.packagePage name = .ok link ∧ r'.Wrote output .ofPackage link) ∧
    (∀ v ∈ w.context.typeViews, ∃ d ∈ s.model.types, TypeView.of s.links d = .ok v ∧
      ∀ file, d.sourceFile? = some file →
        ∃ link, v.sourceLink = link ++ Links.lineMark d.line ∧ r'.Wrote output .ofSource link) ∧
    (∀ v ∈ w.context.memberViews, ∃ d ∈ s.model.types, ∃ m ∈ d.members,
      w.context.cls.map (·.info.name) = some d.name ∧ MemberView.of s.links d m = .ok v ∧
      ∀ file, d.sourceFile? = some file →
        ∃ link, v.sourceLink = link ++ Links.lineMark m.line ∧ r'.Wrote output .ofSource link) := by
  have hr := Site.after_generate hsorted hfresh hok
  obtain ⟨htypes, hmembers, hns, hpackage⟩ := hr.shows hwritten
  refine ⟨?_, ?_, ?_, ?_, ?_⟩
  · intro v hv
    obtain ⟨d, hd, hof⟩ := htypes v hv
    exact hr.wrote_class hd (TypeView.of_eq_ok hof).1
  · intro name hname
    exact hr.exists_wrote_namespace (hns name hname)
  · intro name hname
    exact hr.exists_wrote_package (hpackage name hname)
  · intro v hv
    obtain ⟨d, hd, hof⟩ := htypes v hv
    refine ⟨d, Index.mem_of_mem_types hd, hof, ?_⟩
    intro file hfile
    obtain ⟨link, hlink, hsource⟩ := Links.sourceLink_eq_ok hfile (TypeView.of_eq_ok hof).2.1
    exact ⟨link, hsource, hr.wrote_source hd hfile hlink⟩
  · intro v hv
    obtain ⟨d, hd, m, hm, hinfo, hof⟩ := hmembers v hv
    refine ⟨d, Index.mem_of_mem_types hd, m, hm, hinfo, hof, ?_⟩
    intro file hfile
    obtain ⟨link, hlink, hsource⟩ :=
      Links.memberSourceLink_eq_ok hfile (MemberView.of_eq_ok hof).2.1
    exact ⟨link, hsource, hr.wrote_source hd hfile hlink⟩

namespace Site

def onlyType : Decl where
  name := "N\\A"
  shortName := "A"
  ns := "N"
  package := "p"
  kind := .classType
  file := some ⟨"src/A.php"⟩
  line := some 3
  userDefined := true

def onlyModel : Model := ⟨⟨"src"⟩, [onlyType], by decide⟩

/-- A site of one type and one page with a fixed name. -/
def small : Site :=
  let config :=
    Config.Document.resolve { templates := { common := [("index.html", "o.html")] } } ⟨"."⟩
  { model := onlyModel, config, links := .ofConfig config ⟨"src"⟩ }

def blank : Engine Unit := ⟨fun _ _ _ state => (.ok "", state)⟩

def freshRun : Run Unit where
  tree := ⟨[(["out"], .dir), (["src"], .dir), (["src", "A.php"], .file .empty)], []⟩
  engine := ()
  progress := .fresh false

theorem freshRun_sorted : freshRun.tree.Sorted :=
  ⟨⟨by decide +kernel, by decide +kernel, by decide +kernel⟩, by decide +kernel⟩

theorem index_onlyType : Index.ofTypes [onlyType] =
    ⟨[onlyType], [⟨"N", [onlyType], ["p"]⟩], [⟨"p", [onlyType], ["N"]⟩]⟩ := by
  simp [Index.ofTypes, Index.sortBy, Index.firsts, Index.groupBy, Index.distinctNames,
    Text.sortNames, Text.dropRepeats, onlyType]

theorem index_small : small.index =
    ⟨[onlyType], [⟨"N", [onlyType], ["p"]⟩], [⟨"p", [onlyType], ["N"]⟩]⟩ := index_onlyType

theorem generate_small_eq_none :
    (small.generate blank .plain ⟨"out"⟩ freshRun).2 = none := by
  simp only [generate, pages, pageCount, index_small]
  decide +kernel

theorem written_small :
    (small.generate blank .plain ⟨"out"⟩ freshRun).1.written.map (·.link) =
      ["index.html", "namespace-N.html", "package-p.html", "class-N.A.html",
        "source-A.php.html"] := by
  simp only [generate, pages, pageCount, index_small]
  decide +kernel

theorem links_of_generate_small : ∃ r', small.generate blank .plain ⟨"out"⟩ freshRun =
    (r', none) ∧ r'.written.length = 5 ∧ ∀ w ∈ r'.written, ∀ v ∈ w.context.typeViews,
      r'.Wrote ⟨"out"⟩ .ofClass v.link := by
  refine ⟨_, Prod.ext rfl generate_small_eq_none, ?_, fun w hw => ?_⟩
  · rw [← List.length_map, written_small]
    rfl
  · exact (links_of_generate freshRun_sorted rfl (Prod.ext rfl generate_small_eq_none) hw).1

end Site
end DocSite
