import DocSite.Proofs.Config
import DocSite.Proofs.FileTree.Join
import DocSite.Proofs.Site.Closure
import DocSite.Template.Engine

namespace DocSite

open FileTree (LinkBelow)

variable {t : FileTree} {env : Config.Environment} {c : Config} {p base : Path} {name : String}

namespace Config

/-- The template that a document names for a page, or the standard one for pages of its sort. -/
def TemplateNames.Names (n : TemplateNames) (page : Page) (name : String) : Prop :=
  match page.sort with
  | .common => (page.link, name) ∈ n.common
  | .ofNamespace => name = n.forNamespace.getD "templates/namespace.html"
  | .ofPackage => name = n.forPackage.getD "templates/package.html"
  | .ofClass => name = n.forClass.getD "templates/class.html"
  | .ofSource => name = n.forSource.getD "templates/source.html"

theorem templates_of_expand {d d' : Document} (h : d.expand env = .ok d') :
    d'.templates = d.templates := by
  obtain ⟨docsUrl, -, h⟩ := bind_eq_ok.1 h
  obtain ⟨vars, -, h⟩ := bind_eq_ok.1 h
  exact Except.ok.inj h ▸ rfl

/-- The templates of a configuration that was loaded from a file are those that the document in
the file names, below the directory of the file. -/
theorem templates_of_load {bar : Option Bool} (h : load t env (some p) bar = .ok c) :
    c.file = some p ∧ ∃ text d, t.readText p = .ok text ∧ document? text = some d ∧
      c.templates = (d.resolve (p.parent.getD ⟨"."⟩)).templates := by
  unfold load at h
  dsimp only at h
  split at h
  · obtain ⟨c₁, h₁, h⟩ := bind_eq_ok.1 h
    obtain ⟨text, d, d', htext, hd, hd', -, rfl⟩ := ofFile_eq_ok_iff.1 h₁
    obtain rfl := Except.ok.inj h
    refine ⟨rfl, text, d, htext, hd, ?_⟩
    simp only [Document.resolve, templates_of_expand hd']
  · simp [bind, Except.bind] at h

end Config

/-- The template of a planned page is the one that its document names for it. -/
theorem Site.exists_name_of_mem_pages {s : Site} {d : Config.Document} {page : Page}
    (hs : s.config.templates = (d.resolve base).templates) (hpage : .ok page ∈ s.pages) :
    ∃ name, d.templates.Names page name ∧ page.template = base.join ⟨name⟩ := by
  cases plans_of_mem_pages hpage with
  | common _ hname hpage =>
    rw [hs] at hname
    obtain ⟨⟨link, name⟩, hmem, heq⟩ := List.mem_map.1 hname
    obtain ⟨rfl, rfl⟩ := Prod.mk.inj heq
    subst hpage
    exact ⟨name, hmem, rfl⟩
  | ofNamespace _ hpage =>
    obtain ⟨types, -, h⟩ := bind_eq_ok.1 hpage
    obtain ⟨link, -, h⟩ := bind_eq_ok.1 h
    obtain rfl := Except.ok.inj h
    exact ⟨_, rfl, by rw [hs]; rfl⟩
  | ofPackage _ hpage =>
    obtain ⟨types, -, h⟩ := bind_eq_ok.1 hpage
    obtain ⟨link, -, h⟩ := bind_eq_ok.1 h
    obtain rfl := Except.ok.inj h
    exact ⟨_, rfl, by rw [hs]; rfl⟩
  | ofClass _ hpage =>
    obtain ⟨context, -, h⟩ := bind_eq_ok.1 hpage
    obtain ⟨link, -, h⟩ := bind_eq_ok.1 h
    obtain rfl := Except.ok.inj h
    exact ⟨_, rfl, by rw [hs]; rfl⟩
  | ofSource _ _ _ hpage =>
    obtain ⟨link, -, h⟩ := bind_eq_ok.1 hpage
    obtain rfl := Except.ok.inj h
    exact ⟨_, rfl, by rw [hs]; rfl⟩

namespace Path

/-- A name that is resolved twice against a directory is resolved once only if the directory is
empty or absolute or the name is absolute. -/
theorem join_join_self_iff : base.join (base.join ⟨name⟩) = base.join ⟨name⟩ ↔
    base.text = "" ∨ base.isAbsolute = true ∨ isAbsolute ⟨name⟩ = true := by
  by_cases hempty : base.text = ""
  · simp [join, hempty]
  by_cases hname : isAbsolute ⟨name⟩ = true
  · simp [join_of_isAbsolute, hname]
  have hrel : isAbsolute ⟨name⟩ = false := by simpa using hname
  have habs : (base.join ⟨name⟩).isAbsolute = base.isAbsolute := isAbsolute_join hempty hrel
  by_cases hbase : base.isAbsolute = true
  · simp [join_of_isAbsolute, habs, hbase]
  · have hinner : (base.join ⟨name⟩).isAbsolute = false := by simpa [habs] using hbase
    rw [join_inj hempty hinner hrel]
    simp [join_ne_right hempty hrel, hempty, hbase, hname]

end Path

/-- Without links and `..`, the two resolutions lead to one place just if the directory leads from
itself to itself. -/
theorem FileTree.follow_join_join_self_iff {dir l : Location} (hempty : base.text ≠ "")
    (hbase : base.isAbsolute = false) (hname : Path.isAbsolute ⟨name⟩ = false)
    (hup : ".." ∉ Path.segments ⟨name⟩) (hno : ∀ loc target, t.entryAt loc ≠ some (.link target))
    (hdir : t.follow true base = .ok dir) (hl : t.follow true (base.join ⟨name⟩) = .ok l) :
    t.follow true (base.join (base.join ⟨name⟩)) = .ok l ↔
      t.follow true (base.join base) = .ok dir := by
  have hnone : ∀ m, ¬t.LinkBelow m := by
    rintro m ⟨loc, target, -, -, he⟩
    exact hno loc target he
  have hself : (base.join base).text ≠ "" := Path.join_ne_empty hempty hbase
  have hplace : l = dir ++ namesOf (Path.segments ⟨name⟩) :=
    eq_append_namesOf_of_follow_join hdir hname hup (hnone dir) hl
  rw [← Path.join_assoc hempty hempty hbase hname]
  constructor
  · intro h
    obtain ⟨m, hm, -⟩ := exists_follow_of_join hself hname h
    have hplace' := eq_append_namesOf_of_follow_join hm hname hup (hnone m) h
    rw [hm, List.append_cancel_right (hplace'.symm.trans hplace)]
  · intro h
    obtain ⟨m, hm, hmdir⟩ := exists_follow_of_join hempty hname hl
    obtain rfl := eq_of_eq_ok hm hdir
    obtain ⟨links, hleads⟩ := leads_of_follow_join hm hname hl
    exact follow_join h hmdir hname (hleads.of_no_links hno)

namespace Template.Workshop

variable {w : Workshop}

theorem read_eq_of_missing {name : String} (h : t.readText (w.pathOf name) = .error .notFound) :
    w.read t name = .error .templateMissing := by
  unfold read
  rw [h]

/-- The file that the engine of a site reads for a page is the one that the configuration names,
resolved against the directory of the configuration file, just if that directory is empty or
absolute or the name is absolute. Any other name is looked for below the directory that the
directory names below itself, which without links and `..` is the same file just if that is the
same directory; and where nothing is found there, the page fails. -/
theorem pathOf_of_load {bar : Option Bool} {s : Site} {page : Page}
    (hload : Config.load t env (some p) bar = .ok c) (hs : s.config = c)
    (hpage : .ok page ∈ s.pages) (hroot : w.root = c.baseDir) :
    ∃ text d name, t.readText p = .ok text ∧ Config.document? text = some d ∧
      d.templates.Names page name ∧
      let base := p.parent.getD ⟨"."⟩
      let named := base.join ⟨name⟩
      let opened := w.pathOf page.template.text
      (opened = named ↔
        base.text = "" ∨ base.isAbsolute = true ∨ Path.isAbsolute ⟨name⟩ = true) ∧
      (opened ≠ named → opened = (base.join base).join ⟨name⟩ ∧
        ∀ (t' : FileTree) (dir l : Location),
          (∀ loc target, t'.entryAt loc ≠ some (.link target)) → ".." ∉ Path.segments ⟨name⟩ →
          t'.follow true base = .ok dir → t'.follow true named = .ok l →
          (t'.follow true opened = .ok l ↔ t'.follow true (base.join base) = .ok dir)) ∧
      ∀ (t' : FileTree) (context : PageContext) (memory : Memory),
        memory.templates.lookup page.template.text = none →
        t'.readText opened = .error .notFound →
        (w.engine.render t' page.template context memory).1 = .error .templateMissing := by
  obtain ⟨hfile, text, d, htext, hd, htemplates⟩ := Config.templates_of_load hload
  obtain ⟨name, hname, htemplate⟩ := Site.exists_name_of_mem_pages (hs ▸ htemplates) hpage
  refine ⟨text, d, name, htext, hd, hname, ?_⟩
  have hbase : w.root = p.parent.getD ⟨"."⟩ := by
    rw [hroot, Config.baseDir, hfile]
    rfl
  generalize p.parent.getD ⟨"."⟩ = base at hbase htemplate
  have hopened : w.pathOf page.template.text = base.join (base.join ⟨name⟩) := by
    rw [pathOf, hbase, htemplate]
  simp only [hopened]
  refine ⟨Path.join_join_self_iff, fun hne => ?_, ?_⟩
  · have hcond := mt Path.join_join_self_iff.2 hne
    simp only [not_or, Bool.not_eq_true] at hcond
    obtain ⟨hempty, habs, hrel⟩ := hcond
    refine ⟨(Path.join_assoc hempty hempty habs hrel).symm, ?_⟩
    intro t' dir l hno hup hdir hl
    exact FileTree.follow_join_join_self_iff hempty habs hrel hup hno hdir hl
  · intro t' context memory hfresh hmissing
    rw [← hopened] at hmissing
    simp [engine, renderPage, load, hfresh, read_eq_of_missing hmissing]

def themed : FileTree := ⟨[
  (["out"], .dir), (["theme"], .dir), (["theme", "apidoc.toml"], .file .empty),
  (["theme", "templates"], .dir), (["theme", "templates", "namespace.html"], .file .empty)], []⟩

def themedConfig : Config :=
  { Config.standard ⟨"theme"⟩ with file := some ⟨"theme/apidoc.toml"⟩ }

def themedSite : Site := ⟨Site.onlyModel, themedConfig, .ofConfig themedConfig ⟨"src"⟩⟩

def themedShop : Workshop :=
  ⟨themedConfig.baseDir, ⟨"out"⟩, Site.onlyModel, .ofConfig themedConfig ⟨"src"⟩, .plain⟩

theorem readText_themed : themed.readText ⟨"theme/apidoc.toml"⟩ = .ok "" :=
  rfl

theorem load_themed :
    Config.load themed [] (some ⟨"theme/apidoc.toml"⟩) none = .ok themedConfig := by
  have hpath : themed.hasPath ⟨"theme/apidoc.toml"⟩ = true := rfl
  have hparent : Path.parent ⟨"theme/apidoc.toml"⟩ = some ⟨"theme"⟩ := rfl
  have hdocument : Config.document? "" = some {} := rfl
  simp only [Config.load, hpath, if_true, Config.ofFile, readText_themed, hparent, Config.ofToml,
    hdocument]
  rfl

theorem index_themed : themedSite.index =
    ⟨[Site.onlyType], [⟨"N", [Site.onlyType], ["p"]⟩], [⟨"p", [Site.onlyType], ["N"]⟩]⟩ :=
  Site.index_onlyType

theorem exists_page_themed : ∃ page, .ok page ∈ themedSite.pages ∧ page.sort = .ofNamespace := by
  have hhead : themedSite.pages.head?.map (fun p => p.toOption.map Page.sort) =
      some (some .ofNamespace) := by
    simp only [Site.pages, index_themed]
    rfl
  obtain ⟨p, hp, hfirst⟩ := Option.map_eq_some_iff.1 hhead
  obtain ⟨page, hpage, hsort⟩ := Option.map_eq_some_iff.1 hfirst
  obtain rfl := toOption_eq_some_iff.1 hpage
  exact ⟨page, List.mem_of_head? hp, hsort⟩

theorem pathOf_of_load_themed :
    Config.load themed [] (some ⟨"theme/apidoc.toml"⟩) none = .ok themedConfig ∧
    ∃ page, .ok page ∈ themedSite.pages ∧ page.sort = .ofNamespace ∧
      themedShop.pathOf page.template.text = ⟨"theme/theme/templates/namespace.html"⟩ := by
  obtain ⟨page, hpage, hsort⟩ := exists_page_themed
  refine ⟨load_themed, page, hpage, hsort, ?_⟩
  obtain ⟨text, d, name, htext, hd, hname, hsame, hother, -⟩ :=
    pathOf_of_load (w := themedShop) load_themed rfl hpage rfl
  obtain rfl := eq_of_eq_ok readText_themed htext
  obtain rfl : {} = d := Option.some.inj hd
  simp only [Config.TemplateNames.Names, hsort] at hname
  subst hname
  have hparent : (Path.parent ⟨"theme/apidoc.toml"⟩).getD ⟨"."⟩ = ⟨"theme"⟩ := rfl
  rw [hparent] at hsame hother
  have hne := mt hsame.1 (by decide)
  rw [(hother hne).1]
  rfl

/-- The template stands where the configuration names it, and the site cannot be generated. -/
theorem generate_themed_misses_template :
    Config.load themed [] (some ⟨"theme/apidoc.toml"⟩) none = .ok themedConfig ∧
    themed.isFile (Path.join ⟨"theme"⟩ ⟨"templates/namespace.html"⟩) = true ∧
    themedShop.pathOf themedConfig.templates.forNamespace.text ≠
      Path.join ⟨"theme"⟩ ⟨"templates/namespace.html"⟩ ∧
    (themedSite.generate themedShop.engine .plain ⟨"out"⟩
      ⟨themed, {}, .fresh false, [], {}, []⟩).2 =
        some (.template ⟨"theme/templates/namespace.html"⟩ .templateMissing) := by
  refine ⟨load_themed, rfl, by decide, ?_⟩
  simp only [Site.generate, Site.pages, Site.pageCount, index_themed]
  rfl

end Template.Workshop
end DocSite
