import DocSite.Command.Run
import DocSite.Proofs.Site.Confinement
import DocSite.Proofs.Site.Replay
import DocSite.Proofs.Wipe.Completion
import DocSite.Proofs.Wipe.Undo

namespace DocSite

open FileTree (Grows Within Leads Rooted LinkFree Confined Replay)
open DocSite.Path (GoesDown)

variable {σ : Type} {s : Site} {e : Engine σ} {h : Highlighter} {output p : Path} {r : Run σ}
variable {t t' u w T : FileTree} {top loc : Location} {c : Config} {engine : σ}

namespace FileTree

/-- A path leads to something that is neither below a location nor above it. -/
def Apart (t : FileTree) (p : Path) (top : Location) : Prop :=
  ∃ loc e, t.follow true p = .ok loc ∧ t.entryAt loc = some e ∧ ¬top <+: loc ∧ ¬loc <+: top

structure SameLinks (t t' : FileTree) : Prop where
  current : t'.current = t.current
  link : ∀ loc dest, t'.entryAt loc = some (.link dest) ↔ t.entryAt loc = some (.link dest)

theorem SameLinks.trans {t'' : FileTree} (h : SameLinks t t') (h' : SameLinks t' t'') :
    SameLinks t t'' :=
  ⟨h'.current.trans h.current, fun loc dest => (h'.link loc dest).trans (h.link loc dest)⟩

theorem Grows.sameLinks {P : Location → Prop} (h : Grows t P t') : SameLinks t t' :=
  ⟨h.within.current, fun loc dest => ⟨h.link loc dest, h.within.link⟩⟩

/-- What lies apart stays where it is, if it can still be found at all. -/
theorem Apart.of_sameLinks (h : t.Apart p top) (hsame : SameLinks t t')
    (hloc : t'.follow true p = .ok loc) : ¬top <+: loc ∧ ¬loc <+: top := by
  obtain ⟨l, e, hl, -, hout⟩ := h
  obtain ⟨-, hleads⟩ := follow_eq_ok_iff.1 hl
  obtain ⟨-, hleads'⟩ := follow_eq_ok_iff.1 hloc
  rw [hsame.current] at hleads'
  obtain rfl := hleads.unique_of_links hleads' hsame.link
  exact hout

end FileTree

open FileTree (SameLinks)

def Site.startRun (s : Site) (engine : σ) (t : FileTree) : Run σ :=
  { tree := t, engine, progress := .fresh s.config.progressBar }

/-- Wipes the output, creates it and generates a site into it. -/
def Site.regenerate (s : Site) (e : Engine σ) (h : Highlighter) (output : Path) (engine : σ)
    (t : FileTree) : Option (Run σ) :=
  match wipe output s.config t with
  | (_, false) => none
  | (t, true) =>
    match t.createDirAll output with
    | (_, some _) => none
    | (t, none) =>
      match s.generate e h output (s.startRun engine t) with
      | (_, some _) => none
      | (r, none) => some r

theorem Site.regenerate_eq_some_iff : s.regenerate e h output engine t = some r ↔
    ∃ w u, wipe output s.config t = (w, true) ∧ w.createDirAll output = (u, none) ∧
      s.generate e h output (s.startRun engine u) = (r, none) := by
  unfold regenerate
  constructor
  · intro hr
    split at hr
    · simp at hr
    rename_i w hwipe
    split at hr
    · simp at hr
    rename_i u hcreate
    split at hr
    · simp at hr
    rename_i r' hgenerate
    obtain rfl := Option.some.inj hr
    exact ⟨w, u, hwipe, hcreate, hgenerate⟩
  · rintro ⟨w, u, hwipe, hcreate, hgenerate⟩
    simp only [hwipe, hcreate, hgenerate]

/-- A command that generates a site does just this once it has read its configuration and model. -/
theorem GenerateOptions.run_eq_of_load {o : GenerateOptions} {env : Config.Environment} {m : Model}
    (hc : Config.load t env o.config (if o.hideBar then some false else none) = .ok c)
    (hm : Model.load t o.model = .ok m) (hkeep : o.keep = false) :
    let links := Links.ofConfig c m.root
    let workshop : Template.Workshop := ⟨c.baseDir, o.output, m, links, .plain⟩
    ((o.run env t).error?.isNone = true ↔
      ∃ r, Site.regenerate ⟨m, c, links⟩ workshop.engine .plain o.output {} t = some r) ∧
    ∀ r, Site.regenerate ⟨m, c, links⟩ workshop.engine .plain o.output {} t = some r →
      (o.run env t).tree = r.tree := by
  intro links workshop
  unfold run loadConfig build Site.regenerate
  rw [hc]
  dsimp only
  rw [hm]
  dsimp only
  rw [prepare, hkeep, if_neg (by simp)]
  rcases wipe o.output c t with ⟨w, _ | _⟩
  · simp [Outcome.fail]
  dsimp only
  rcases w.createDirAll o.output with ⟨u, _ | cause⟩
  · dsimp only [GenerateOptions.generate, workshop, links, Site.startRun]
    rcases Site.generate _ _ _ _ _ with ⟨r, _ | cause⟩ <;> simp [Outcome.fail]
  · simp [Outcome.fail]

/-- The output is a directory of which nothing is left that a wipe would take, and no link was
touched on the way there. -/
structure Ready (output : Path) (top : Location) (c : Config) (t u : FileTree) : Prop where
  sorted : u.Sorted
  linkFree : LinkFree u output top
  bare : Wipe.Bare output top c u
  sameLinks : SameLinks t u

/-- An output that is there is ready after its wipe, and need not be created. -/
theorem ready_of_isDir (hc : c.Valid) (ht : t.Sorted) (hout : LinkFree t output top)
    (hnames : ∀ name ∈ c.templates.common.keys, Config.leavesOutput name = false)
    (hwipe : wipe output c t = (w, true)) (hcreate : w.createDirAll output = (u, none)) :
    Ready output top c t u := by
  have hw := ht.toWellFormed
  obtain ⟨u₁, u₂, hphases⟩ := Wipe.exists_phases hw hout.follow hout.isDir (by rw [hwipe])
  rw [hwipe] at hphases
  have hloses := hphases.first.trans (hphases.second.trans hphases.third)
  have hsorted : w.Sorted := by
    have hall : (wipe output c t).1.Sorted := wipe_sorted ht
    rwa [hwipe] at hall
  obtain ⟨hfollow, hdir⟩ := hphases.target_left
  have hstay : w.createDirAll output = (w, none) :=
    FileTree.createDirs_of_isDir (FileTree.isDir_iff.2 ⟨top, hfollow, hdir⟩) _
  obtain rfl := (Prod.mk.inj (hcreate.symm.trans hstay)).1
  refine ⟨hsorted, ⟨hfollow, hdir, ?_⟩, hphases.bare hc hout.follow hout.no_links hnames,
    hloses.current, fun loc dest => ⟨hloses.entryAt_eq, fun hlink => ?_⟩⟩
  · rintro ⟨loc, dest, hle, hne, hlink⟩
    exact hout.no_links ⟨loc, dest, hle, hne, hloses.entryAt_eq hlink⟩
  · have hoff : ¬top <+: loc := by
      intro hle
      by_cases hne : loc = top
      · rw [hne, FileTree.isDirAt_iff.1 hout.isDir] at hlink
        simp at hlink
      · exact hout.no_links ⟨loc, dest, hle, hne, hlink⟩
    have hstays := Wipe.staysInside_of_no_links hc hw hphases.hasPath hout.follow hout.no_links
      hnames
    have hsame := Wipe.unchanged_of_staysInside hw hphases.hasPath hout.follow hstays hoff
    rw [hwipe] at hsame
    exact hsame.trans hlink

/-- An output that was created for its path, and does not pass below itself, is empty. -/
theorem below_eq_nil_of_createDirs {n : Nat} (ht : t.Sorted) (hnone : t.entryAt top = none)
    (hgrow : Within (t.createDirs p n).1 T) (htop : (T.clear top).follow true p = .ok top)
    (hdir : T.isDirAt top = true) : (t.createDirs p n).1.below top = [] := by
  refine List.eq_nil_iff_forall_not_mem.2 fun ⟨l, e⟩ hmem => ?_
  have hgrows : Grows t (fun _ => True) (t.createDirs p n).1 := FileTree.createDirs_grows ht n
  obtain ⟨he, hle, hne⟩ := hgrows.sorted.mem_below_iff.1 hmem
  rcases FileTree.createDirs_created ht n l with hkept | hnew
  · have htopdir := ht.isDirAt_of_prefix (hkept ▸ he) hle hne.symm
    simp [FileTree.isDirAt, hnone] at htopdir
  · -- the path passes what was created, but it passes only what is not below its end
    obtain ⟨segs, hsegs, ⟨rest, hrest⟩, hleads⟩ := hnew.passes.within hgrow hnew.isDir
    obtain ⟨-, htop⟩ := FileTree.follow_eq_ok_iff.1 htop
    have hnot : ∀ m, (T.clear top).isDirAt m = true → Leads T true FileTree.linkLimit
        (if p.isAbsolute then [] else T.current) segs m → False := by
      intro m hm hmleads
      obtain rfl := hmleads.unique hleads
      exact (FileTree.entryAt_clear_eq_some_iff.1 (FileTree.isDirAt_iff.1 hm)).2 ⟨hle, hne⟩
    by_cases hend : rest = []
    · subst hend
      rw [List.append_nil] at hrest
      have hclear : (T.clear top).isDirAt top = true := by
        rw [FileTree.isDirAt_iff, FileTree.entryAt_clear_eq_some_iff]
        exact ⟨FileTree.isDirAt_iff.1 hdir, fun h => h.2 rfl⟩
      refine hnot top hclear ?_
      rw [hrest]
      exact htop.within FileTree.clear_within fun _ _ => by
        simp [FileTree.isDirAt_iff.1 hclear]
    · rw [← hrest] at htop
      obtain ⟨m, hm, hmdir⟩ := htop.exists_prefix hend
      exact hnot m hmdir (hm.within FileTree.clear_within fun _ _ => by
        simp [FileTree.isDirAt_iff.1 hmdir])

theorem ready_of_missing (ht : t.Sorted) (hnone : t.entryAt top = none)
    (hnames : ∀ name ∈ c.templates.common.keys, GoesDown ⟨name⟩)
    (hcreate : t.createDirAll output = (u, none)) (hfollow : u.follow true output = .ok top)
    (hudir : u.isDirAt top = true) (hgrow : Within u T)
    (htop : (T.clear top).follow true output = .ok top) : Ready output top c t u := by
  have hgrows : Grows t (fun _ => True) (t.createDirAll output).1 :=
    FileTree.createDirAll_grows ht
  have hempty : (t.createDirAll output).1.below top = [] :=
    below_eq_nil_of_createDirs ht hnone (by rwa [← FileTree.createDirAll, hcreate]) htop
      (hgrow.isDirAt hudir)
  rw [hcreate] at hgrows hempty
  refine ⟨hgrows.sorted, ⟨hfollow, hudir, ?_⟩,
    Wipe.bare_of_below_eq_nil hfollow hudir hempty hnames, hgrows.sameLinks⟩
  rintro ⟨loc, dest, hle, hne, hlink⟩
  simp [FileTree.entryAt_eq_none_of_below_eq_nil hempty hle hne] at hlink

/-- Where all planned pages could be written, there is one for each fixed name. -/
theorem Site.exists_page_of_key (hpages : ∀ planned ∈ s.pages, ∃ page, planned = .ok page)
    {name : String} (hname : name ∈ s.config.templates.common.keys) :
    ∃ page, .ok page ∈ s.pages ∧ page.link = name := by
  obtain ⟨⟨_, template⟩, hmem, rfl⟩ := List.mem_map.1 hname
  have hne : s.config.templates.common.isEmpty = false := by
    rw [Bool.eq_false_iff, ne_eq, List.isEmpty_iff]
    exact List.ne_nil_of_mem hmem
  have hsub : ∀ planned ∈ s.commonPages s.index, planned ∈ s.pages := fun planned h => by
    simp [Site.pages, h]
  unfold Site.commonPages at hsub
  rw [hne, if_neg (by simp)] at hsub
  split at hsub
  · rename_i cause _
    obtain ⟨page, hpage⟩ := hpages _ (hsub _ (.head _))
    simp at hpage
  · exact ⟨_, hsub _ (List.mem_map.2 ⟨_, hmem, rfl⟩), rfl⟩

/-- After a run that succeeded, each fixed name is one that a destination could have. -/
theorem Run.After.leavesOutput_eq_false (hr : Run.After output c t s.pages r)
    (hout : LinkFree r.tree output top)
    (hpages : ∀ page, .ok page ∈ s.pages → GoesDown ⟨page.link⟩) {name : String}
    (hname : name ∈ s.config.templates.common.keys) : Config.leavesOutput name = false := by
  obtain ⟨page, hpage, rfl⟩ := Site.exists_page_of_key (fun planned hmem => by
    obtain ⟨page, -, rfl, -⟩ := hr.complete planned hmem
    exact ⟨page, rfl⟩) hname
  obtain ⟨hrel, hup⟩ := hpages page hpage
  refine Config.leavesOutput_eq_false_iff.2 ⟨fun hempty => ?_, hrel, hup⟩
  -- the empty name leads to the output itself, which is no file
  obtain ⟨page', written, heq, hw, source, rfl⟩ := hr.complete _ hpage
  obtain rfl := Except.ok.inj heq
  obtain ⟨loc, bytes, hloc, he⟩ := FileTree.isFile_iff.1 (hr.isFile _ hw)
  have hnames : FileTree.namesOf (Path.segments ⟨page.link⟩) = [] := by
    rw [hempty]
    rfl
  obtain rfl := FileTree.eq_append_namesOf_of_follow_join hout.follow hrel hup hout.no_links hloc
  rw [hnames, List.append_nil, FileTree.isDirAt_iff.1 hout.isDir] at he
  simp at he

/-- What has grown out of a ready tree is, after another wipe, a replay of that tree. -/
theorem Ready.replay (hu : Ready output top c t u) (hc : c.Valid) (hgrow : Confined top u T)
    (hroot : Rooted T output top) (hnames : ∀ name ∈ c.templates.common.keys, GoesDown ⟨name⟩)
    (hwipe : wipe output c T = (w, true)) : Replay T top u w := by
  have hT := hgrow.sorted.toWellFormed
  have hloses := (Wipe.wipe_rooted hroot hT hc hnames).1
  have hkept := hu.bare.kept hu.sorted.toWellFormed hu.linkFree.follow hu.linkFree.isDir
    hgrow.within hroot hT hc hnames (by rw [hwipe])
  have hsorted : (wipe output c T).1.Sorted := wipe_sorted hgrow.sorted
  rw [hwipe] at hloses hkept hsorted
  refine ⟨hu.sorted, hsorted, ⟨hloses.current.trans hgrow.within.current, fun loc e he => ?_⟩,
    hloses.within, fun loc => ?_, hgrow.link, fun loc hout => ?_⟩
  · rcases hkept loc with heq | hnone
    · rw [heq]
      exact hgrow.within.entry loc e he
    · simp [he] at hnone
  · rcases hloses.entry loc with heq | ⟨hgone, -⟩
    · exact .inr heq
    · rcases hkept loc with heq | hnone
      · exact .inr heq
      · exact .inl (hgone.trans hnone.symm)
  · rcases hloses.entry loc with heq | ⟨-, hbelow⟩
    · exact heq.trans (hgrow.outside loc hout)
    · exact absurd hbelow.1 hout

/-- What a site reads lies apart from its output, below which there are no links. -/
structure Site.Separate (s : Site) (t : FileTree) (top : Location) : Prop where
  no_links : ¬t.LinkBelow top
  resource : ∀ resource ∈ s.config.resources, t.Apart resource.source top
  source : ∀ page file, .ok page ∈ s.pages → page.sourceFile = some file → t.Apart file top

open FileTree in
/-- What a site that was generated has been written into, and what the output is then. -/
theorem Site.exists_ready (hc : s.config.Valid) (ht : t.Sorted) (hlinks : ¬t.LinkBelow top)
    (hpages : ∀ page, .ok page ∈ s.pages → GoesDown ⟨page.link⟩)
    (hstart : (t.follow true output = .ok top ∧ t.isDirAt top = true) ∨
      (t.hasPath output = false ∧ t.entryAt top = none))
    (hr : s.regenerate e h output engine t = some r)
    (htop : (r.tree.clear top).follow true output = .ok top) :
    ∃ u, s.generate e h output (s.startRun engine u) = (r, none) ∧
      Ready output top s.config t u ∧ Confined top u r.tree ∧ Rooted r.tree output top ∧
      ∀ name ∈ s.config.templates.common.keys, GoesDown ⟨name⟩ := by
  obtain ⟨w, u, hwipe, hcreate, hgenerate⟩ := regenerate_eq_some_iff.1 hr
  have hloses : Shrinks t (wipe output s.config t).1 :=
    (Wipe.wipe_loses ht.toWellFormed {} output s.config).shrinks
  have hwsorted : (wipe output s.config t).1.Sorted := wipe_sorted ht
  rw [hwipe] at hloses hwsorted
  have hugrows : Grows w (fun _ => True) (w.createDirAll output).1 := createDirAll_grows hwsorted
  rw [hcreate] at hugrows
  have hafter : Run.After output s.config u s.pages r :=
    after_generate hugrows.sorted rfl hgenerate
  -- the output is the same directory all the way
  have hfollow : r.tree.follow true output = .ok top :=
    follow_within clear_within htop fun _ hlink => by
      rw [entryAt_clear_eq_some_iff.2 ⟨hlink, fun h => h.2 rfl⟩]
      simp
  obtain ⟨l, hl, hdir⟩ := isDir_iff.1 (isDir_of_generate hgenerate)
  obtain rfl := eq_of_eq_ok (hafter.grows.follow hl (isDirAt_iff.1 hdir)) hfollow
  have hno : ¬r.tree.LinkBelow l := by
    rintro ⟨loc, dest, hle, hne, hlink⟩
    exact hlinks
      ⟨loc, dest, hle, hne, hloses.entryAt_eq (hugrows.link _ _ (hafter.grows.link _ _ hlink))⟩
  have hrdir := hafter.grows.within.isDirAt hdir
  have hleaves : ∀ name ∈ s.config.templates.common.keys, Config.leavesOutput name = false :=
    fun name => hafter.leavesOutput_eq_false ⟨hfollow, hrdir, hno⟩ hpages
  have hnames : ∀ name ∈ s.config.templates.common.keys, GoesDown ⟨name⟩ := fun name hname =>
    (Config.leavesOutput_eq_false_iff.1 (hleaves name hname)).2
  have hready : Ready output l s.config t u := by
    rcases hstart with ⟨hstart, hstartdir⟩ | ⟨hmissing, hnone⟩
    · exact ready_of_isDir hc ht ⟨hstart, hstartdir, hlinks⟩ hleaves hwipe hcreate
    · have hskip : wipe output s.config t = (t, true) := by simp [wipe, hmissing]
      obtain rfl := (Prod.mk.inj (hwipe.symm.trans hskip)).1
      exact ready_of_missing ht hnone hnames hcreate hl hdir hafter.grows.within htop
  have hconfined : Confined l u (s.generate e h output (s.startRun engine u)).1.tree :=
    generate_confined (r := s.startRun engine u) hc hugrows.sorted hready.linkFree hpages
  rw [hgenerate] at hconfined
  exact ⟨u, hgenerate, hready, hconfined, ⟨htop, hrdir, hno⟩, hnames⟩

/-- After a second wipe that succeeds, the output need not be created and the run is repeated. -/
theorem Ready.regenerate (hu : Ready output top s.config t u) (hc : s.config.Valid)
    (he : e.Steady top) (hsep : s.Separate t top)
    (hgenerate : s.generate e h output (s.startRun engine u) = (r, none))
    (hgrow : Confined top u r.tree) (hroot : Rooted r.tree output top)
    (hnames : ∀ name ∈ s.config.templates.common.keys, GoesDown ⟨name⟩)
    (hwipe : wipe output s.config r.tree = (w, true)) (engine' : σ) :
    ∃ r', s.regenerate e h output engine' r.tree = some r' ∧
      r' = { r with engine := r'.engine } := by
  have hroot' : Rooted w output top := by
    have hloses := (Wipe.wipe_rooted hroot hgrow.sorted.toWellFormed hc hnames).1
    rw [hwipe] at hloses
    exact hroot.loses hloses
  have hstay : w.createDirAll output = (w, none) :=
    FileTree.createDirs_of_isDir
      (FileTree.isDir_iff.2 ⟨top, hroot'.follow, hroot'.isDir⟩) _
  have hsame := hu.sameLinks.trans hgrow.toGrows.sameLinks
  have hpq : Run.Replays r.tree top (s.startRun engine u) (s.startRun engine' w) :=
    .mk engine' (hu.replay hc hgrow hroot hnames hwipe)
  obtain ⟨q, hq, hrq⟩ := hpq.generate he hgenerate (.refl _)
    (fun resource hmem _ hloc => (hsep.resource resource hmem).of_sameLinks hsame hloc)
    fun page file hpage hfile _ hloc =>
      ((hsep.source page file hpage hfile).of_sameLinks hsame hloc).1
  exact ⟨q, Site.regenerate_eq_some_iff.2 ⟨w, w, hwipe, hstay, hq⟩, hrq.eq_final⟩

open Wipe in
/-- When a site can be generated again. Let it have been generated into an output that was there,
or that was missing with nothing in its place, from sources apart from it, by pages that go down.
Then it can be generated a second time exactly if the wipe comes to no copy of a resource whose
destination ends in `.`, as it never does if no destination does; and when it can, the second time
leaves the same tree, with the same statistics and pages. -/
theorem Site.regenerate_again (hc : s.config.validate = .ok ()) (he : e.Steady top)
    (ht : t.Sorted) (hsep : s.Separate t top)
    (hpages : ∀ page, .ok page ∈ s.pages → GoesDown ⟨page.link⟩)
    (hstart : (t.follow true output = .ok top ∧ t.isDirAt top = true) ∨
      (t.hasPath output = false ∧ t.entryAt top = none))
    (hr : s.regenerate e h output engine t = some r)
    (htop : (r.tree.clear top).follow true output = .ok top) (engine' : σ) :
    ((∃ r', s.regenerate e h output engine' r.tree = some r') ↔
      ∀ resource u, ResourceTurn output s.config r.tree resource u →
        u.isDir (output.join ⟨resource.destination⟩) = true →
          FileTree.endsInDot ⟨resource.destination⟩ = false) ∧
    ((∀ resource ∈ s.config.resources, FileTree.endsInDot ⟨resource.destination⟩ = false) →
      ∃ r', s.regenerate e h output engine' r.tree = some r') ∧
    ∀ r', s.regenerate e h output engine' r.tree = some r' →
      r' = { r with engine := r'.engine } := by
  have hvalid := Config.valid_of_validate hc
  obtain ⟨u, hgenerate, hready, hconfined, hroot, hnames⟩ :=
    exists_ready hvalid ht hsep.no_links hpages hstart hr htop
  have hagain : ∀ w, wipe output s.config r.tree = (w, true) → _ := fun w hwipe =>
    hready.regenerate hvalid he hsep hgenerate hconfined hroot hnames hwipe engine'
  -- what can fail the second time is the wipe alone
  have hsucceeds : (∃ r', s.regenerate e h output engine' r.tree = some r') ↔
      (wipe output s.config r.tree).2 = true := by
    constructor
    · rintro ⟨r', hr'⟩
      obtain ⟨w, -, hwipe, -⟩ := regenerate_eq_some_iff.1 hr'
      rw [hwipe]
    · intro hok
      obtain ⟨r', hr', -⟩ := hagain _ (Prod.ext rfl hok)
      exact ⟨r', hr'⟩
  have hiff := hsucceeds.trans
    (wipe_rooted hroot hconfined.sorted.toWellFormed hvalid hnames).2
  refine ⟨hiff, fun hdots => hiff.2 fun resource _ hturn _ => hdots resource hturn.mem, ?_⟩
  intro r' hr'
  obtain ⟨w, -, hwipe, -⟩ := regenerate_eq_some_iff.1 hr'
  obtain ⟨r'', hr'', heq⟩ := hagain w hwipe
  obtain rfl := Option.some.inj (hr''.symm.trans hr')
  exact heq

namespace GenerateOptions

variable {o : GenerateOptions} {env : Config.Environment} {m : Model}

theorem error_eq_notWiped_iff (hc : o.loadConfig env t = .ok c) (hm : Model.load t o.model = .ok m)
    (hkeep : o.keep = false) : (o.run env t).error? = some (.notWiped o.output) ↔
      (wipe o.output c t).2 = false := by
  unfold run build
  rw [hc]
  dsimp only
  rw [hm]
  dsimp only
  rw [prepare, hkeep, if_neg (by simp)]
  rcases wipe o.output c t with ⟨w, _ | _⟩
  · simp [Outcome.fail]
  dsimp only
  rcases w.createDirAll o.output with ⟨u, _ | cause⟩
  · dsimp only [generate]
    rcases Site.generate _ _ _ _ _ with ⟨r, _ | cause⟩ <;> simp [Outcome.fail]
  · simp [Outcome.fail]

open Wipe in
/-- A command given again. If it has generated a site and loads the same configuration and model the
second time, it fails to clear the output exactly if the wipe comes to a copy of a resource whose
destination ends in `.`. -/
theorem run_again (hc : o.loadConfig env t = .ok c) (hm : Model.load t o.model = .ok m)
    (hkeep : o.keep = false) (ht : t.Sorted) (hlinks : ¬t.LinkBelow top)
    (hpages : ∀ page, .ok page ∈ (⟨m, c, .ofConfig c m.root⟩ : Site).pages →
      GoesDown ⟨page.link⟩)
    (hstart : (t.follow true o.output = .ok top ∧ t.isDirAt top = true) ∨
      (t.hasPath o.output = false ∧ t.entryAt top = none))
    (hok : (o.run env t).error?.isNone = true)
    (htop : ((o.run env t).tree.clear top).follow true o.output = .ok top)
    (hc' : o.loadConfig env (o.run env t).tree = .ok c)
    (hm' : Model.load (o.run env t).tree o.model = .ok m) :
    (o.run env (o.run env t).tree).error? = some (.notWiped o.output) ↔
      ∃ resource u, ResourceTurn o.output c (o.run env t).tree resource u ∧
        u.isDir (o.output.join ⟨resource.destination⟩) = true ∧
        FileTree.endsInDot ⟨resource.destination⟩ = true := by
  obtain ⟨hiff, htree⟩ := run_eq_of_load hc hm hkeep
  obtain ⟨r, hr⟩ := hiff.1 hok
  rw [error_eq_notWiped_iff hc' hm' hkeep]
  rw [htree r hr] at htop ⊢
  have hvalid : c.Valid := Config.valid_of_load hc
  obtain ⟨u, -, -, hconfined, hroot, hnames⟩ :=
    Site.exists_ready hvalid ht hlinks hpages hstart hr htop
  rw [← Bool.not_eq_true, (wipe_rooted hroot hconfined.sorted.toWellFormed hvalid hnames).2]
  simp only [not_forall, exists_prop, Bool.not_eq_false]

end GenerateOptions

namespace Site

theorem blank_steady : Engine.Steady blank top := fun _ _ _ _ _ _ _ _ => rfl

theorem page_bracketed {page : Page} (hpage : .ok page ∈ bracketed.pages) :
    GoesDown ⟨page.link⟩ ∧ ∀ file, page.sourceFile = some file → file = ⟨"src/A.php"⟩ := by
  have hchecked : ∀ planned ∈ bracketed.pages, planned.toOption.all (fun page =>
      decide (GoesDown ⟨page.link⟩) && page.sourceFile.all (· == ⟨"src/A.php"⟩)) = true := by
    simp only [pages, index_bracketed]
    decide
  have hboth := hchecked _ hpage
  rw [Except.toOption, Option.all_some, Bool.and_eq_true, decide_eq_true_iff] at hboth
  refine ⟨hboth.1, fun file hfile => ?_⟩
  rw [hfile, Option.all_some] at hboth
  exact eq_of_beq hboth.2

theorem separate_bracketed : bracketed.Separate resourceRun.tree ["out"] where
  no_links := FileTree.not_linkBelow_of_entries (by simp [resourceRun])
  resource resource hmem := by
    obtain rfl : resource = ⟨⟨"./res"⟩, "css"⟩ := List.mem_singleton.1 hmem
    exact ⟨["res"], .dir, rfl, rfl, by decide, by decide⟩
  source page file hpage hfile := by
    obtain rfl := (page_bracketed hpage).2 file hfile
    exact ⟨["src", "A.php"], .file .empty, rfl, rfl, by decide, by decide⟩

theorem regenerate_bracketed :
    ∃ r, bracketed.regenerate blank .plain ⟨"out"⟩ () resourceRun.tree = some r ∧
      r.tree.isFile ⟨"out/css/a.css"⟩ = true ∧
      (r.tree.clear ["out"]).follow true ⟨"out"⟩ = .ok ["out"] := by
  have hany : (bracketed.regenerate blank .plain ⟨"out"⟩ () resourceRun.tree).any (fun r =>
      r.tree.isFile ⟨"out/css/a.css"⟩ &&
        ((r.tree.clear ["out"]).follow true ⟨"out"⟩).toOption == some ["out"]) = true := by
    simp only [regenerate, generate, pages, pageCount, index_bracketed]
    decide +kernel
  obtain ⟨r, hr, hchecked⟩ := (Option.any_eq_true _ _).1 hany
  rw [Bool.and_eq_true] at hchecked
  exact ⟨r, hr, hchecked.1, toOption_eq_some_iff.1 (eq_of_beq hchecked.2)⟩

theorem regenerate_again_bracketed : ∃ r,
    bracketed.regenerate blank .plain ⟨"out"⟩ () resourceRun.tree = some r ∧
    r.tree.isFile ⟨"out/css/a.css"⟩ = true ∧
    bracketed.regenerate blank .plain ⟨"out"⟩ () r.tree = some r := by
  have hvalid : bracketed.config.validate = .ok () := rfl
  have hfollow : resourceRun.tree.follow true ⟨"out"⟩ = .ok ["out"] := rfl
  obtain ⟨r, hr, hcopy, htop⟩ := regenerate_bracketed
  obtain ⟨-, hagain, hsame⟩ := regenerate_again hvalid blank_steady resourceRun_sorted
    separate_bracketed (fun page hpage => (page_bracketed hpage).1)
    (.inl ⟨hfollow, rfl⟩) hr htop ()
  obtain ⟨r', hr'⟩ := hagain (by decide)
  exact ⟨r, hr, hcopy, hr'.trans (congrArg some (hsame r' hr'))⟩

/-- A site of no types, whose only resource is copied to a directory that ends in `.`. -/
def spilled : Site :=
  let config := Config.Document.resolve { resources := [("res", ".")] } ⟨"."⟩
  { model := ⟨⟨"src"⟩, [], List.nodup_nil⟩, config, links := .ofConfig config ⟨"src"⟩ }

theorem index_spilled : spilled.index = ⟨[], [], []⟩ := by
  simp [index, spilled, Index.ofTypes, Index.sortBy, Index.firsts, Index.groupBy,
    Index.distinctNames, Text.sortNames, Text.dropRepeats]

def noOutput : FileTree := ⟨[(["res"], .dir), (["res", "a.css"], .file .empty)], []⟩

theorem separate_spilled : spilled.Separate noOutput ["out"] where
  no_links := FileTree.not_linkBelow_of_entries (by simp [noOutput])
  resource resource hmem := by
    obtain rfl : resource = ⟨⟨"./res"⟩, "."⟩ := List.mem_singleton.1 hmem
    exact ⟨["res"], .dir, rfl, rfl, by decide, by decide⟩
  source page file hpage hfile := by
    have hnone : spilled.pages = [] := by
      simp only [pages, index_spilled]
      rfl
    rw [hnone] at hpage
    contradiction

/-- The second wipe takes all that is below the output, and fails since it cannot remove `out/.`. -/
theorem regenerate_spilled_eq_none : spilled.config.validate = .ok () ∧
    spilled.Separate noOutput ["out"] ∧
    ∃ r, spilled.regenerate blank .plain ⟨"out"⟩ () noOutput = some r ∧
      r.tree.isFile ⟨"out/a.css"⟩ = true ∧
      (wipe ⟨"out"⟩ spilled.config r.tree).2 = false ∧
      (wipe ⟨"out"⟩ spilled.config r.tree).1.below ["out"] = [] ∧
      spilled.regenerate blank .plain ⟨"out"⟩ () r.tree = none := by
  have hvalid : spilled.config.validate = .ok () := rfl
  have hany : (spilled.regenerate blank .plain ⟨"out"⟩ () noOutput).any (fun r =>
      r.tree.isFile ⟨"out/a.css"⟩ && !(wipe ⟨"out"⟩ spilled.config r.tree).2 &&
        ((wipe ⟨"out"⟩ spilled.config r.tree).1.below ["out"]).isEmpty) = true := by
    simp only [regenerate, generate, pages, pageCount, index_spilled]
    rfl
  obtain ⟨r, hr, hchecked⟩ := (Option.any_eq_true _ _).1 hany
  simp only [Bool.and_eq_true, Bool.not_eq_true', List.isEmpty_iff] at hchecked
  obtain ⟨⟨hcopy, hwipe⟩, hgone⟩ := hchecked
  refine ⟨hvalid, separate_spilled, r, hr, hcopy, hwipe, hgone, ?_⟩
  cases hagain : spilled.regenerate blank .plain ⟨"out"⟩ () r.tree with
  | none => rfl
  | some r' =>
    obtain ⟨w, -, hok, -⟩ := regenerate_eq_some_iff.1 hagain
    simp [hok] at hwipe

end Site
end DocSite
