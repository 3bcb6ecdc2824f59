import DocSite.Proofs.Site.Closure
import DocSite.Proofs.Wipe.Success

namespace DocSite

open FileTree (Loses Shrinks Found)

variable {σ : Type} {s : Site} {r r' : Run σ} {output : Path} {e : Engine σ} {h : Highlighter}
variable {t : FileTree} {top loc : Location} {c : Config} {x : FileTree.Refusals}

theorem Path.empty_mem_segments_of_isAbsolute {p : Path} (hp : p.isAbsolute = true) :
    "" ∈ p.segments := by
  cases htext : p.text.toList with
  | nil => simp [isAbsolute, htext] at hp
  | cons a rest =>
    have ha : a = '/' := by simpa [isAbsolute, htext] using hp
    refine List.mem_map.2 ⟨[], ?_, rfl⟩
    rw [htext, ha, Text.splitAll_cons_self]
    exact .head _

/-- A pattern could have named the file that it names with a token. -/
theorem Filenames.couldName_fill {pattern token : String} {before after : List Char}
    (hcut : Text.splitAt? placeholder pattern.toList = some (before, after))
    (htoken : '/' ∉ token.toList) : CouldName pattern (Path.segments ⟨fill pattern token⟩) := by
  have hfill : (fill pattern token).toList = before ++ token.toList ++ after := by
    simp [fill, hcut]
  refine ⟨before, after, token.toList, Text.splitAt?_eq_some_iff.1 hcut, htoken, ?_⟩
  rw [← hfill]
  split
  · have hparts : (Path.segments ⟨fill pattern token⟩).map String.toList =
        Text.splitAll '/' (fill pattern token).toList := by
      simp [Path.segments, Function.comp_def]
    rw [hparts, Text.joinWith_splitAll]
  · rename_i hsep
    have hpattern := Text.eq_of_splitAt?_eq_some hcut
    have hno : '/' ∉ (fill pattern token).toList := by
      rw [hfill]
      simp only [hpattern, List.mem_append, not_or] at hsep ⊢
      exact ⟨⟨hsep.1.1, htoken⟩, hsep.2⟩
    rw [Path.segments_of_no_separator hno]
    rfl

/-- A page with a pattern stands where that pattern could have named it. -/
theorem couldName_of_page (hc : s.config.Valid) (hnames : s.links.filenames = s.config.filenames)
    (htop : t.follow true output = .ok top) (hlinks : ¬t.LinkBelow top) {link : String}
    (hfills : s.links.Fills link)
    (hsegs : ∀ seg ∈ Path.segments ⟨link⟩, seg ≠ "" ∧ seg ≠ "." ∧ seg ≠ "..")
    (hloc : t.follow true (output.join ⟨link⟩) = .ok loc) : ∃ kind pattern names,
      (kind, pattern) ∈ s.config.filenames.patterns ∧ loc = top ++ names ∧
        Filenames.CouldName pattern names := by
  obtain ⟨kind, pattern, token, hp, htoken, rfl⟩ := hfills
  rw [hnames] at hp
  have hrel : Path.isAbsolute ⟨Filenames.fill pattern token⟩ = false := by
    rw [Bool.eq_false_iff]
    exact fun habs => (hsegs _ (Path.empty_mem_segments_of_isAbsolute habs)).1 rfl
  have hup : ".." ∉ Path.segments ⟨Filenames.fill pattern token⟩ := fun h => (hsegs _ h).2.2 rfl
  -- none of the segments is dropped on the way
  have hall : FileTree.namesOf (Path.segments ⟨Filenames.fill pattern token⟩) =
      Path.segments ⟨Filenames.fill pattern token⟩ := by
    refine List.filter_eq_self.2 fun seg hseg => ?_
    simp [(hsegs seg hseg).1, (hsegs seg hseg).2.1]
  have hplace := FileTree.eq_append_namesOf_of_follow_join htop hrel hup hlinks hloc
  rw [hall] at hplace
  obtain ⟨before, after, hcut⟩ := Config.exists_splitAt?_of_valid hc hp
  exact ⟨kind, pattern, _, hp, hplace, Filenames.couldName_fill hcut htoken⟩

namespace Run.After

theorem no_linkBelow (hr : After output c t s.pages r) (hempty : t.below top = []) :
    ¬r.tree.LinkBelow top := by
  rintro ⟨loc, dest, hle, hne, hlink⟩
  have hold := hr.grows.link loc dest hlink
  simp [FileTree.entryAt_eq_none_of_below_eq_nil hempty hle hne] at hold

/-- Every file below an empty output comes from the run. -/
theorem fromRun (hr : After output c t s.pages r) (hdir : t.isDirAt top = true)
    (hempty : t.below top = []) (hle : top <+: loc) {bytes : ByteArray}
    (he : r.tree.entryAt loc = some (.file bytes)) : FromRun output c r loc := by
  rcases hr.grows.file loc bytes he with hold | hrun
  · exfalso
    have hne : loc ≠ top := by
      rintro rfl
      simp [FileTree.isDirAt_iff.1 hdir] at hold
    simp [FileTree.entryAt_eq_none_of_below_eq_nil hempty hle hne] at hold
  · exact hrun

theorem inDir_of_copy (hr : After output c t s.pages r) (hc : c.Valid)
    (htop : r.tree.follow true output = .ok top) (hdir : r.tree.isDirAt top = true)
    (hlinks : ¬r.tree.LinkBelow top) {resource : Resource} {names : List String}
    (hmem : resource ∈ c.resources) (hne : names ≠ []) (hnames : ∀ name ∈ names, IsName name)
    (hloc : r.tree.follow true
      (Found.pathBelow (output.join ⟨resource.destination⟩) names) = .ok loc)
    {bytes : ByteArray} (he : r.tree.entryAt loc = some (.file bytes)) :
    r.tree.InDir (output.join ⟨resource.destination⟩) loc := by
  obtain ⟨htext, hrel, hup⟩ := Config.leavesOutput_eq_false_iff.1 (hc.destination _ hmem)
  have hw := hr.grows.sorted.toWellFormed
  obtain ⟨hbelow, hsegs, hup'⟩ := FileTree.segments_pathBelow htext hrel hnames
  rw [FileTree.pathBelow_join (FileTree.follow_eq_ok_iff.1 htop).1 htext hrel
    fun name hname => (hnames name hname).2.2.2] at hloc
  have hplace := FileTree.eq_append_namesOf_of_follow_join htop hbelow (hup' hup) hlinks hloc
  rw [hsegs, ← List.append_assoc] at hplace
  -- so the copy of the resource is the directory at the names of its destination
  have hroot := hw.isDirAt_of_append hne (hplace ▸ he)
  exact ⟨_, FileTree.follow_join htop hdir hrel (FileTree.leads_of_isDirAt hw hup hroot), hroot,
    hplace ▸ List.prefix_append _ _⟩

/-- A page that was written is of a planned sort: it has a configured name, or a link made from a
pattern. -/
theorem link_of_written (hr : After output c t s.pages r) {w : WrittenPage} (hw : w ∈ r.written) :
    (w.sort = .common → w.link ∈ s.config.templates.common.keys) ∧
      (w.sort ≠ .common → s.links.Fills w.link) := by
  obtain ⟨page, hpage, source, rfl⟩ := hr.planned w hw
  exact (Site.plans_of_mem_pages hpage).link

/-- Of the files of a run, those in no copy of a resource that no pattern could have named are
pages with fixed names. -/
theorem exists_common_of_fromRun (hr : After output s.config t s.pages r) (hc : s.config.Valid)
    (hnames : s.links.filenames = s.config.filenames) (htop : r.tree.follow true output = .ok top)
    (hdir : r.tree.isDirAt top = true) (hlinks : ¬r.tree.LinkBelow top)
    (hsegs : ∀ w ∈ r.written, w.sort ≠ .common →
      ∀ seg ∈ Path.segments ⟨w.link⟩, seg ≠ "" ∧ seg ≠ "." ∧ seg ≠ "..")
    {bytes : ByteArray} (he : r.tree.entryAt loc = some (.file bytes))
    (hrun : FromRun output s.config r loc)
    (hcopy : ∀ resource ∈ s.config.resources,
      ¬r.tree.InDir (output.join ⟨resource.destination⟩) loc)
    (hnamed : ∀ kind pattern names, (kind, pattern) ∈ s.config.filenames.patterns →
      loc = top ++ names → ¬Filenames.CouldName pattern names) :
    ∃ w ∈ r.written, w.sort = .common ∧ r.tree.follow true (output.join ⟨w.link⟩) = .ok loc := by
  cases hrun with
  | copy resource names hmem hne hnames hloc =>
    have hin := hr.inDir_of_copy hc htop hdir hlinks hmem hne hnames hloc he
    exact absurd hin (hcopy resource hmem)
  | page w hw hloc =>
    by_cases hsort : w.sort = .common
    · exact ⟨w, hw, hsort, hloc⟩
    · have hfills := (hr.link_of_written hw).2 hsort
      obtain ⟨kind, pattern, names, hp, hplace, hcould⟩ :=
        couldName_of_page hc hnames htop hlinks hfills (hsegs w hw hsort) hloc
      exact absurd hcould (hnamed kind pattern names hp hplace)

end Run.After

theorem Site.isDirAt_of_generate (htop : r.tree.follow true output = .ok top)
    (hok : s.generate e h output r = (r', none)) : r.tree.isDirAt top = true := by
  obtain ⟨l, hl, hdir⟩ := FileTree.isDir_iff.1 (isDir_of_generate hok)
  obtain rfl := eq_of_eq_ok hl htop
  exact hdir

open Wipe in
/-- A wipe that succeeds after a run into an empty output leaves only pages with fixed names: those
that are in no copy of a resource, that no mask accepts and that no fixed name leads to at its
turn. If the fixed names are such as destinations may be, no file is left. -/
theorem Site.wipe_of_generate (hc : s.config.validate = .ok ())
    (hlinks : s.links = .ofConfig s.config s.model.root) (hsorted : r.tree.Sorted)
    (hfresh : r.written = []) (htop : r.tree.follow true output = .ok top)
    (hempty : r.tree.below top = []) (hok : s.generate e h output r = (r', none))
    (hsegs : ∀ w ∈ r'.written, w.sort ≠ .common →
      ∀ seg ∈ Path.segments ⟨w.link⟩, seg ≠ "" ∧ seg ≠ "." ∧ seg ≠ "..")
    (hwipe : (wipe output s.config r'.tree x).2 = true) :
    (∀ loc, top <+: loc →
      ((∃ bytes, (wipe output s.config r'.tree x).1.entryAt loc = some (.file bytes)) ↔
        (∃ w ∈ r'.written, w.sort = .common ∧
          r'.tree.follow true (output.join ⟨w.link⟩) = .ok loc) ∧
        (∀ resource ∈ s.config.resources,
          ¬r'.tree.InDir (output.join ⟨resource.destination⟩) loc) ∧
        (∀ name u, CommonPageTurn output s.config r'.tree name u →
          ¬CommonPageAt output u name loc) ∧
        ∀ kind pattern names, (kind, pattern) ∈ s.config.filenames.patterns → loc = top ++ names →
          ¬Filenames.CouldName pattern names)) ∧
    ((∀ name ∈ s.config.templates.common.keys, Config.leavesOutput name = false) →
      ∀ loc bytes, top <+: loc →
        (wipe output s.config r'.tree x).1.entryAt loc ≠ some (.file bytes)) := by
  have hvalid := Config.valid_of_validate hc
  have hnames : s.links.filenames = s.config.filenames := by rw [hlinks]; rfl
  have hdir := Site.isDirAt_of_generate htop hok
  have hr := Site.after_generate hsorted hfresh hok
  have hw := hr.grows.sorted.toWellFormed
  have htop' := hr.grows.follow htop (FileTree.isDirAt_iff.1 hdir)
  have hdir' := hr.grows.within.isDirAt hdir
  have hno := hr.no_linkBelow hempty
  -- what is left comes from the run, since the output was empty
  have hcommon : ∀ loc bytes, top <+: loc →
      (wipe output s.config r'.tree x).1.entryAt loc = some (.file bytes) →
      ∃ w ∈ r'.written, w.sort = .common ∧
        r'.tree.follow true (output.join ⟨w.link⟩) = .ok loc := by
    intro loc bytes hle hfile
    obtain ⟨⟨bytes', he⟩, hcopy, -, hnamed⟩ :=
      (file_left_iff hvalid hw htop' hdir' hno hwipe).1 ⟨bytes, hfile⟩
    exact hr.exists_common_of_fromRun hvalid hnames htop' hdir' hno hsegs he
      (hr.fromRun hdir hempty hle he) hcopy hnamed
  refine ⟨fun loc hle => ⟨?_, ?_⟩, ?_⟩
  · rintro ⟨bytes, hfile⟩
    exact ⟨hcommon loc bytes hle hfile,
      ((file_left_iff hvalid hw htop' hdir' hno hwipe).1 ⟨bytes, hfile⟩).2⟩
  · rintro ⟨⟨w, hwritten, -, hloc⟩, hrest⟩
    obtain ⟨l, bytes, hl, he⟩ := FileTree.isFile_iff.1 (hr.isFile w hwritten)
    obtain rfl := eq_of_eq_ok hl hloc
    exact (file_left_iff hvalid hw htop' hdir' hno hwipe).2 ⟨⟨bytes, he⟩, hrest⟩
  · intro hchecked loc bytes hle hfile
    obtain ⟨w, hwritten, hsort, hloc⟩ := hcommon loc bytes hle hfile
    have hkey := (hr.link_of_written hwritten).1 hsort
    obtain ⟨u₁, u₂, hphases⟩ := exists_phases hw htop' hdir' hwipe
    obtain ⟨u, hu, hpage⟩ :=
      hphases.exists_turn_of_checked htop' hno hkey (hchecked _ hkey) hloc hfile
    have hgone := hphases.commonPage_gone hu hpage
    rw [hgone] at hfile
    contradiction

namespace Site

def bracketed : Site :=
  let config := Config.Document.resolve
    { resources := [("res", "css")]
      filenames := { Filenames.standard with forClass := some "api/[%s].html" }
      templates := { common := [("index.html", "o.html")] } } ⟨"."⟩
  { model := onlyModel, config, links := .ofConfig config ⟨"src"⟩ }

/-- A fresh run over an empty output, the declaring file and a resource. -/
def resourceRun : Run Unit where
  tree := ⟨[
    (["out"], .dir), (["res"], .dir), (["res", "a.css"], .file .empty), (["src"], .dir),
    (["src", "A.php"], .file .empty)], []⟩
  engine := ()
  progress := .fresh false

theorem resourceRun_sorted : resourceRun.tree.Sorted :=
  ⟨⟨by decide +kernel, by decide +kernel, by decide +kernel⟩, by decide +kernel⟩

theorem index_bracketed : bracketed.index =
    ⟨[onlyType], [⟨"N", [onlyType], ["p"]⟩], [⟨"p", [onlyType], ["N"]⟩]⟩ := index_onlyType

theorem generate_bracketed :
    (bracketed.generate blank .plain ⟨"out"⟩ resourceRun).2 = none ∧
    (∀ w ∈ (bracketed.generate blank .plain ⟨"out"⟩ resourceRun).1.written, w.sort ≠ .common →
      ∀ seg ∈ Path.segments ⟨w.link⟩, seg ≠ "" ∧ seg ≠ "." ∧ seg ≠ "..") ∧
    (bracketed.generate blank .plain ⟨"out"⟩ resourceRun).1.tree.isFile ⟨"out/api/[N.A].html"⟩ =
      true ∧
    (wipe ⟨"out"⟩ bracketed.config
      (bracketed.generate blank .plain ⟨"out"⟩ resourceRun).1.tree).2 = true := by
  simp only [generate, pages, pageCount, index_bracketed]
  decide +kernel

theorem wipe_of_generate_bracketed :
    ∃ r', bracketed.generate blank .plain ⟨"out"⟩ resourceRun = (r', none) ∧
      r'.tree.isFile ⟨"out/api/[N.A].html"⟩ = true ∧ ∀ loc bytes, ["out"] <+: loc →
        (wipe ⟨"out"⟩ bracketed.config r'.tree).1.entryAt loc ≠ some (.file bytes) := by
  have hvalid : bracketed.config.validate = .ok () :=
    toOption_eq_some_iff.1 (by decide +kernel)
  have hfollow : resourceRun.tree.follow true ⟨"out"⟩ = .ok ["out"] :=
    toOption_eq_some_iff.1 (by decide +kernel)
  obtain ⟨hnone, hwritten, hfile, hwipe⟩ := generate_bracketed
  have hgenerate : bracketed.generate blank .plain ⟨"out"⟩ resourceRun =
      ((bracketed.generate blank .plain ⟨"out"⟩ resourceRun).1, none) := Prod.ext rfl hnone
  refine ⟨_, hgenerate, hfile, ?_⟩
  exact (wipe_of_generate hvalid rfl resourceRun_sorted rfl hfollow rfl hgenerate hwritten
    hwipe).2 (by decide +kernel)

/-- A site of no types, whose only page has a name that passes through the copy of a resource. -/
def strayed : Site :=
  let config := Config.Document.resolve
    { resources := [("res", "css")]
      templates := { common := [("css/../index.html", "o.html")] } } ⟨"."⟩
  { model := ⟨⟨"src"⟩, [], by decide⟩, config, links := .ofConfig config ⟨"src"⟩ }

theorem index_strayed : strayed.index = ⟨[], [], []⟩ := by
  simp [index, strayed, Index.ofTypes, Index.sortBy, Index.firsts, Index.groupBy,
    Index.distinctNames, Text.sortNames, Text.dropRepeats]

/-- Once the copy is gone, the name of the page leads nowhere: the wipe succeeds and the page is
left. -/
theorem wipe_strayed_leaves_index : strayed.config.validate = .ok () ∧
    (strayed.generate blank .plain ⟨"out"⟩ resourceRun).2 = none ∧
    (wipe ⟨"out"⟩ strayed.config
      (strayed.generate blank .plain ⟨"out"⟩ resourceRun).1.tree).2 = true ∧
    (wipe ⟨"out"⟩ strayed.config
      (strayed.generate blank .plain ⟨"out"⟩ resourceRun).1.tree).1.isFile ⟨"out/index.html"⟩ =
      true := by
  have hvalid : strayed.config.validate = .ok () := toOption_eq_some_iff.1 (by decide +kernel)
  refine ⟨hvalid, ?_⟩
  simp only [generate, pages, pageCount, index_strayed]
  decide +kernel

end Site
end DocSite
