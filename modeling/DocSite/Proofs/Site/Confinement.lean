import DocSite.Proofs.Site.Closure
import DocSite.Proofs.Site.PageName

namespace DocSite

open FileTree (Grows Found)
open DocSite.Path (GoesDown)

namespace FileTree

variable {t t' t'' : FileTree} {loc top : Location} {p q : Path}

/-- The second tree has the entries of the first and more, and is the same except below a
location. -/
structure Confined (top : Location) (t t' : FileTree) : Prop extends
    Grows t (fun _ => True) t' where
  outside : ∀ loc, ¬top <+: loc → t'.entryAt loc = t.entryAt loc

theorem Confined.refl (hs : t.Sorted) : Confined top t t := ⟨.refl hs, fun _ _ => rfl⟩

theorem Confined.trans (h : Confined top t t') (h' : Confined top t' t'') : Confined top t t'' :=
  ⟨h.toGrows.trans h'.toGrows, fun loc hloc => (h'.outside loc hloc).trans (h.outside loc hloc)⟩

/-- A path leads to a directory with no links below it. -/
structure LinkFree (t : FileTree) (p : Path) (top : Location) : Prop where
  follow : t.follow true p = .ok top
  isDir : t.isDirAt top = true
  no_links : ¬t.LinkBelow top

theorem LinkFree.grows {P : Location → Prop} (h : LinkFree t p top) (hg : Grows t P t') :
    LinkFree t' p top where
  follow := hg.follow h.follow (isDirAt_iff.1 h.isDir)
  isDir := hg.within.isDirAt h.isDir
  no_links := by
    rintro ⟨loc, dest, hle, hne, hlink⟩
    exact h.no_links ⟨loc, dest, hle, hne, hg.link loc dest hlink⟩

/-- A path that goes down from a directory without links leads to a place below it. -/
theorem LinkFree.prefix_of_follow {last : Bool} (h : LinkFree t p top) (hq : q.GoesDown)
    (hloc : t.follow last (p.join q) = .ok loc) : top <+: loc :=
  prefix_of_follow_join h.follow hq.1 hq.2 h.no_links hloc

theorem putFile_confined {bytes : ByteArray} (hs : t.Sorted) (hp : t.follow true p = .ok loc)
    (hdir : t.entryAt loc ≠ some .dir) (hle : top <+: loc) :
    Confined top t (t.put loc (.file bytes)) := by
  refine ⟨(putFile_grows hs hp hdir).mono fun _ _ => trivial, fun l hl => ?_⟩
  have hne : loc ≠ [] := by
    rintro rfl
    exact hdir rfl
  rw [entryAt_put hne, if_neg]
  rintro rfl
  exact hl hle

/-- The directories above what a path that goes down names are created below its start. -/
theorem createDirAll_confined {dir : Path} (hs : t.Sorted) (h : LinkFree t p top)
    (hq : q.GoesDown) (hparent : (p.join q).parent = some dir) :
    Confined top t (t.createDirAll dir).1 := by
  have hgrows : Grows t (fun _ => True) (t.createDirAll dir).1 := createDirAll_grows hs
  refine ⟨hgrows, fun loc hloc => ?_⟩
  by_cases htrivial : dir.text = "" ∨ dir.text = "/"
  · rw [createDirAll, createDirs_of_parent_eq_none (Path.parent_eq_none htrivial)]
  rw [not_or] at htrivial
  rcases createDirs_created hs (dir.components.length + 1) loc with hkept | hnew
  · exact hkept
  · have hpasses := hnew.passes.of_parent hparent htrivial.1 htrivial.2
    rcases hpasses.of_join hgrows.within h.follow h.isDir hq (h.grows hgrows).no_links with
      ⟨e, he⟩ | hle
    · rw [hnew.missing] at he
      contradiction
    · exact absurd hle hloc

end FileTree

open FileTree (Confined LinkFree)

variable {σ : Type} {r : Run σ} {output : Path} {top loc : Location} {c : Config} {s : Site}
variable {e : Engine σ} {h : Highlighter}

/-- Names below a destination that goes down are come to by going down from the output. -/
theorem exists_goesDown_pathBelow {q : Path} {names : List String} (hout : output.text ≠ "")
    (hq : q.GoesDown) (hne : names ≠ []) (hnames : ∀ name ∈ names, IsName name) :
    ∃ q' : Path, q'.GoesDown ∧ Found.pathBelow (output.join q) names = output.join q' ∧
      FileTree.namesOf q'.segments = FileTree.namesOf q.segments ++ names := by
  have hbelow : ∀ (q : Path) (names : List String), q.GoesDown → q.text ≠ "" →
      (∀ name ∈ names, IsName name) → ∃ q' : Path, q'.GoesDown ∧
        Found.pathBelow (output.join q) names = output.join q' ∧
        FileTree.namesOf q'.segments = FileTree.namesOf q.segments ++ names := by
    intro q names hq htext hnames
    obtain ⟨hrel, hsegs, hup⟩ := FileTree.segments_pathBelow htext hq.1 hnames
    exact ⟨_, ⟨hrel, hup hq.2⟩, FileTree.pathBelow_join hout htext hq.1
      fun name hname => (hnames name hname).2.2.2, hsegs⟩
  by_cases htext : q.text = ""
  case neg => exact hbelow q names hq htext hnames
  -- the empty path only puts a separator after the output
  obtain rfl : q = ⟨""⟩ := Path.text_inj.1 htext
  obtain ⟨name, rest, rfl⟩ := List.exists_cons_of_ne_nil hne
  have hname := hnames name (.head _)
  have hrel := Path.isAbsolute_eq_false_of_no_separator hname.2.2.2
  have hone := Path.segments_of_no_separator hname.2.2.2
  have hdown : Path.GoesDown ⟨name⟩ := ⟨hrel, by simpa [hone] using Ne.symm hname.2.2.1⟩
  obtain ⟨q', hq', hpath, hsegs⟩ :=
    hbelow ⟨name⟩ rest hdown hname.1 fun n hn => hnames n (.tail _ hn)
  refine ⟨q', hq', ?_, ?_⟩
  · rw [← hpath, ← Path.join_empty_join hout hrel]
    rfl
  · rw [hsegs, hone, FileTree.namesOf_cons (FileTree.isStep_of_isName hname)]
    rfl

namespace Run

theorem ensureParent_confined {q : Path} (hs : r.tree.Sorted) (hout : LinkFree r.tree output top)
    (hq : q.GoesDown) : Confined top r.tree (r.ensureParent (output.join q)).1.tree := by
  unfold ensureParent
  split
  · exact .refl hs
  · rename_i dir hparent
    exact FileTree.createDirAll_confined hs hout hq hparent

theorem copyEntry_confined {f : Found} {q : Path} {target : Path} (hs : r.tree.Sorted)
    (hout : LinkFree r.tree output top) (hq : q.GoesDown)
    (hdest : Found.pathBelow target f.names = output.join q) :
    Confined top r.tree (copyEntry target r f).1.tree := by
  have hends := copyEntry_ends target r f
  have hparent := ensureParent_confined hs hout hq
  rw [← hdest] at hparent
  generalize copyEntry target r f = a at hends ⊢
  cases hends with
  | skipped => exact .refl hs
  | homeless h | refused h => rwa [h] at hparent
  | copied _ h hcopy =>
    rw [h] at hparent
    obtain ⟨loc, bytes, hloc, hdir, rfl⟩ := FileTree.copyFile_eq_ok hcopy
    rw [hdest] at hloc
    have hle := (hout.grows hparent.toGrows).prefix_of_follow hq hloc
    exact hparent.trans (FileTree.putFile_confined hparent.sorted hloc hdir hle)

theorem copyResource_confined {resource : Resource} (hs : r.tree.Sorted)
    (hout : LinkFree r.tree output top)
    (hdest : Config.leavesOutput resource.destination = false) :
    Confined top r.tree (copyResource output r resource).1.tree := by
  obtain ⟨-, hrel, hup⟩ := Config.leavesOutput_eq_false_iff.1 hdest
  unfold copyResource
  split
  · exact .refl hs
  rename_i found hwalk
  obtain ⟨root, -, hroot, -⟩ := FileTree.exists_root_of_walk hwalk
  refine advance_invariant (I := fun r' => Confined top r.tree r'.tree) (.refl hs) ?_
  intro f hf r' hr'
  -- the copy of an entry lies below the destination, by the names of the entry
  have hfound := (FileTree.mem_walk_iff hs.toWellFormed hwalk hroot).1 hf
  obtain ⟨q, hq, hjoin, -⟩ := exists_goesDown_pathBelow (FileTree.follow_eq_ok_iff.1 hout.follow).1
    ⟨hrel, hup⟩ hfound.names_ne_nil fun name hname =>
      hs.isName hfound.entry_eq (List.mem_append_right _ hname)
  exact hr'.trans (copyEntry_confined hr'.sorted (hout.grows hr'.toGrows) hq hjoin)

theorem writePage_confined {link text : String} (hs : r.tree.Sorted)
    (hout : LinkFree r.tree output top) (hlink : GoesDown ⟨link⟩) :
    Confined top r.tree (r.writePage output link text).1.tree := by
  have hends := writePage_ends output r link text
  have hparent := ensureParent_confined hs hout hlink
  generalize r.writePage output link text = a at hends ⊢
  cases hends with
  | homeless h | refused h => rwa [h] at hparent
  | written h hwrite =>
    rw [h] at hparent
    obtain ⟨loc, hloc, hdir, rfl⟩ := FileTree.write_eq_ok hwrite
    have hle := (hout.grows hparent.toGrows).prefix_of_follow hlink hloc
    exact hparent.trans (FileTree.putFile_confined hparent.sorted hloc hdir hle)

theorem renderPage_confined {p : PlannedPage} (hs : r.tree.Sorted)
    (hout : LinkFree r.tree output top) (hp : ∀ page, p = .ok page → GoesDown ⟨page.link⟩) :
    Confined top r.tree (renderPage e h output r p).1.tree := by
  have hends := renderPage_ends e h output r p
  generalize renderPage e h output r p = a at hends ⊢
  cases hends with
  | unplanned | unread | unrendered => exact .refl hs
  | @unwritten page _ text engine _ _ _ _ hwrite | @written page _ text engine _ _ _ hwrite =>
    have hall : Confined top r.tree
        ({ r with engine }.writePage output page.link text).1.tree :=
      writePage_confined (r := { r with engine }) hs hout (hp page rfl)
    rwa [hwrite] at hall

end Run

/-- A run whose planned pages go down changes its output only, whether it succeeds or not. -/
theorem Site.generate_confined (hc : s.config.Valid) (hs : r.tree.Sorted)
    (hout : LinkFree r.tree output top) (hpages : ∀ page, .ok page ∈ s.pages → GoesDown ⟨page.link⟩) :
    Confined top r.tree (s.generate e h output r).1.tree :=
  generate_invariant (I := Confined top r.tree) (.refl hs)
    (fun resource hmem _ hr' => hr'.trans (Run.copyResource_confined hr'.sorted
      (hout.grows hr'.toGrows) (hc.destination resource hmem)))
    fun _ hmem _ hr' => hr'.trans (Run.renderPage_confined hr'.sorted (hout.grows hr'.toGrows)
      fun page hpage => hpages page (hpage ▸ hmem))

/-- Which accepted configurations keep a run inside an output without links. Whether a pattern goes
down for every name is told by a few tokens; if the patterns do for these and the common names do,
so does every planned page; and then no run, whatever its engine and its end, changes anything
outside, and every path that it writes to leads below the output. -/
theorem Site.outside_generate (hc : s.config.validate = .ok ())
    (hlinks : s.links = .ofConfig s.config s.model.root) (hs : r.tree.Sorted)
    (hout : LinkFree r.tree output top) :
    (∀ kind pattern, (kind, pattern) ∈ s.config.filenames.patterns →
      ((∀ name, GoesDown ⟨Filenames.fill pattern (kind.nameToken name)⟩) ↔
        ∀ token ∈ kind.slightTokens, GoesDown ⟨Filenames.fill pattern token⟩)) ∧
    ((∀ name ∈ s.config.templates.common.keys, GoesDown ⟨name⟩) →
      (∀ kind pattern, (kind, pattern) ∈ s.config.filenames.patterns →
        ∀ token ∈ kind.slightTokens, GoesDown ⟨Filenames.fill pattern token⟩) →
      ∀ page, .ok page ∈ s.pages → GoesDown ⟨page.link⟩) ∧
    ((∀ page, .ok page ∈ s.pages → GoesDown ⟨page.link⟩) →
      ∀ (e : Engine σ) (h : Highlighter),
        let t := (s.generate e h output r).1.tree
        (∀ loc, ¬top <+: loc → t.entryAt loc = r.tree.entryAt loc) ∧
        (∀ page loc, .ok page ∈ s.pages → t.follow true (output.join ⟨page.link⟩) = .ok loc →
          top <+: loc) ∧
        ∀ resource names loc, resource ∈ s.config.resources → (∀ name ∈ names, IsName name) →
          t.follow true (Found.pathBelow (output.join ⟨resource.destination⟩) names) = .ok loc →
          top <+: loc) := by
  have hvalid := Config.valid_of_validate hc
  refine ⟨fun kind pattern hp => hvalid.goesDown_iff hp, fun hkeys hpatterns page hpage =>
    goesDown_of_mem_pages hvalid (by rw [hlinks]; rfl) hkeys hpatterns hpage, ?_⟩
  intro hpages e h
  have hconfined : Confined top r.tree (s.generate e h output r).1.tree :=
    generate_confined hvalid hs hout hpages
  have hout' := hout.grows hconfined.toGrows
  refine ⟨hconfined.outside, fun page loc hpage hloc =>
    hout'.prefix_of_follow (hpages page hpage) hloc, ?_⟩
  intro resource names loc hmem hnames hloc
  obtain ⟨htext, hrel, hup⟩ := Config.leavesOutput_eq_false_iff.1 (hvalid.destination _ hmem)
  obtain ⟨hbelow, -, hup'⟩ := FileTree.segments_pathBelow htext hrel hnames
  rw [FileTree.pathBelow_join (FileTree.follow_eq_ok_iff.1 hout'.follow).1 htext hrel
    fun name hname => (hnames name hname).2.2.2] at hloc
  exact hout'.prefix_of_follow ⟨hbelow, hup' hup⟩ hloc

namespace Site

theorem freshRun_linkFree : LinkFree freshRun.tree ⟨"out"⟩ ["out"] where
  follow := rfl
  isDir := rfl
  no_links := FileTree.not_linkBelow_of_entries (by simp [freshRun])

theorem outside_generate_small :
    (small.generate blank .plain ⟨"out"⟩ freshRun).2 = none ∧
    (∀ page, .ok page ∈ small.pages → GoesDown ⟨page.link⟩) ∧
    ∀ loc, ¬["out"] <+: loc →
      (small.generate blank .plain ⟨"out"⟩ freshRun).1.tree.entryAt loc =
        freshRun.tree.entryAt loc := by
  have hvalid : small.config.validate = .ok () := rfl
  obtain ⟨-, hpages, hrun⟩ := outside_generate hvalid rfl freshRun_sorted freshRun_linkFree
  have hall : ∀ page, .ok page ∈ small.pages → GoesDown ⟨page.link⟩ := by
    apply hpages
    · decide +kernel
    · intro kind pattern hp
      have hchecked : ∀ p ∈ small.config.filenames.patterns, ∀ token ∈ p.1.slightTokens,
          GoesDown ⟨Filenames.fill p.2 token⟩ := by decide +kernel
      exact hchecked (kind, pattern) hp
  exact ⟨generate_small_eq_none, hall, (hrun hall blank .plain).1⟩

/-- A type whose name has one character of two bytes. -/
def accented : Decl :=
  { name := "é", shortName := "é", ns := "N", package := "p", kind := .classType }

def climbing : Site :=
  let config := Config.Document.resolve
    { filenames := { Filenames.standard with forClass := some "%s/index.html" } } ⟨"."⟩
  { model := ⟨⟨"src"⟩, [accented], by decide⟩, config, links := .ofConfig config ⟨"src"⟩ }

theorem index_climbing : climbing.index =
    ⟨[accented], [⟨"N", [accented], ["p"]⟩], [⟨"p", [accented], ["N"]⟩]⟩ := by
  simp [index, climbing, Index.ofTypes, Index.sortBy, Index.firsts, Index.groupBy,
    Index.distinctNames, Text.sortNames, Text.dropRepeats, accented]

/-- The token of the name is `..`, so that the page of the type is written above the output. -/
theorem generate_climbing_leaves_output : climbing.config.validate = .ok () ∧
    climbing.links.typePage accented = .ok "../index.html" ∧
    (climbing.generate blank .plain ⟨"out"⟩ freshRun).2 = none ∧
    freshRun.tree.entryAt ["index.html"] = none ∧ ¬["out"] <+: ["index.html"] ∧
    (climbing.generate blank .plain ⟨"out"⟩ freshRun).1.tree.isFile ⟨"index.html"⟩ = true := by
  have hvalid : climbing.config.validate = .ok () := rfl
  have hlink : climbing.links.typePage accented = .ok "../index.html" := rfl
  refine ⟨hvalid, hlink, ?_, rfl, by decide, ?_⟩ <;>
    simp only [generate, pages, pageCount, index_climbing] <;> decide +kernel

end Site
end DocSite
