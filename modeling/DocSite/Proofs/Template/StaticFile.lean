import DocSite.Proofs.Site.Output
import DocSite.Proofs.Site.Patterns
import DocSite.Proofs.Template.Run
import DocSite.Template.Engine

namespace DocSite

open FileTree (Grows)

namespace Template

/-- An engine remembers just the answers that it gave, so that it never gives two for one name. -/
def Memory.Faithful (m : Memory) : Prop :=
  ∀ name address, (name, address) ∈ m.answers ↔ m.addresses.lookup name = some address

theorem Memory.faithful_empty : Memory.Faithful {} := by simp [Faithful]

/-- What an engine answered in the meantime: when a name was asked for the first time, its answer
satisfied `P`. -/
structure Memory.Answers (P : String → String → Prop) (m m' : Memory) : Prop where
  faithful : m'.Faithful
  before : m.answers <+: m'.answers
  first : ∀ name address, (name, address) ∈ m'.answers → (name, address) ∈ m.answers ∨
    ((∀ other, (name, other) ∉ m.answers) ∧ P name address)

namespace Memory

variable {P Q R : String → String → Prop} {m m' m'' : Memory} {name address : String}

theorem Answers.refl (hm : m.Faithful) : m.Answers P m :=
  ⟨hm, List.prefix_refl _, fun _ _ h => .inl h⟩

/-- What the first answers of two stretches satisfy may be stated anew for both together. -/
theorem Answers.append (h : m.Answers P m') (h' : m'.Answers Q m'')
    (hP : ∀ name address, (∀ other, (name, other) ∉ m.answers) → (name, address) ∈ m'.answers →
      P name address → R name address)
    (hQ : ∀ name address, Q name address → R name address) : m.Answers R m'' where
  faithful := h'.faithful
  before := h.before.trans h'.before
  first name address hmem := by
    rcases h'.first name address hmem with hold | ⟨hnone, hnew⟩
    · refine (h.first name address hold).imp_right fun ⟨hunasked, hfirst⟩ => ?_
      exact ⟨hunasked, hP name address hunasked hold hfirst⟩
    · exact .inr ⟨fun other hother => hnone other (h.before.subset hother), hQ name address hnew⟩

end Memory

namespace Workshop

variable {w : Workshop} {t t' : FileTree} {m m' : Memory} {name : String} {args : Args}

theorem addressOf_eq_self_iff :
    w.addressOf t name = name ↔ t.isFile (w.output.join ⟨name⟩) = false := by
  rw [Bool.eq_false_iff, ne_eq, FileTree.isFile_iff]
  unfold addressOf
  split
  · rename_i bytes hread
    obtain ⟨loc, hloc⟩ := FileTree.read_eq_ok_iff.1 hread
    refine iff_of_false (fun heq => ?_) fun hno => hno ⟨loc, bytes, hloc⟩
    have hlength := congrArg String.length heq
    have hmark : "?".length = 1 := rfl
    simp only [String.length_append] at hlength
    omega
  · rename_i hread
    refine iff_of_true rfl fun ⟨loc, bytes, hloc⟩ => ?_
    simp [FileTree.read_eq_ok_iff.2 ⟨loc, hloc⟩] at hread

theorem addressOf_eq_of_read
    (h : t'.read (w.output.join ⟨name⟩) = t.read (w.output.join ⟨name⟩)) :
    w.addressOf t' name = w.addressOf t name := by
  unfold addressOf
  rw [h]

theorem answers_staticFile (w : Workshop) (t : FileTree) (name : String) (m : Memory) :
    (w.staticFile t name m).2.answers = m.answers ++ [(name, (w.staticFile t name m).1)] := by
  unfold staticFile
  split <;> rfl

/-- A call with one argument gives an address, which is noted with the name that was asked for. -/
theorem callStaticFile_of_single {asked : Datum} (h : args.single = .ok asked) :
    ∃ address m', w.callStaticFile t args m = (.ok (.text address), m') ∧
      m'.answers = m.answers ++ [(asked.display, address)] := by
  refine ⟨_, _, ?_, answers_staticFile w t asked.display m⟩
  simp only [callStaticFile, h]

theorem callStaticFile_of_error {f : TemplateFault} (h : args.single = .error f) :
    w.callStaticFile t args m = (.error f, m) := by
  simp only [callStaticFile, h]

/-- When a name is asked for the first time, the answer is the address that the file has. -/
abbrev Tells (w : Workshop) (t : FileTree) (m m' : Memory) : Prop :=
  m.Answers (fun name address => address = w.addressOf t name) m'

theorem staticFile_tells (h : w.Tells t m m') (name : String) :
    w.Tells t m (w.staticFile t name m').2 := by
  unfold staticFile
  split
  · -- an answer that was given before is given again
    rename_i address hlookup
    have hmem : (name, address) ∈ m'.answers := (h.faithful name address).2 hlookup
    have hiff : ∀ n a, (n, a) ∈ m'.answers ++ [(name, address)] ↔ (n, a) ∈ m'.answers := by
      intro n a
      rw [List.mem_append, List.mem_singleton, or_iff_left_of_imp]
      rintro ⟨rfl, rfl⟩
      exact hmem
    refine ⟨fun n a => (hiff n a).trans (h.faithful n a), h.before.trans (List.prefix_append _ _),
      fun n a hna => h.first n a ((hiff n a).1 hna)⟩
  · rename_i hlookup
    have hnone : ∀ other, (name, other) ∉ m'.answers := fun other hother => by
      simp [(h.faithful name other).1 hother] at hlookup
    refine ⟨fun n a => ?_, h.before.trans (List.prefix_append _ _), fun n a hna => ?_⟩
    · rw [List.mem_append, List.mem_singleton, Prod.mk.injEq, List.lookup_cons]
      by_cases hn : n = name
      · subst hn
        simp [hnone, eq_comm]
      · simp [hn, beq_false_of_ne hn, h.faithful n a]
    · rcases List.mem_append.1 hna with hold | hnew
      · exact h.first n a hold
      · obtain ⟨rfl, rfl⟩ := Prod.mk.inj (List.mem_singleton.1 hnew)
        exact .inr ⟨fun other hother => hnone other (h.before.subset hother), rfl⟩

theorem host_keeps_tells (w : Workshop) (t : FileTree) (m : Memory) :
    (w.host t).Keeps (w.Tells t m) where
  template name m' h := by
    show w.Tells t m (w.load t name m').2
    unfold load
    split
    · exact h
    · split
      · exact ⟨h.faithful, h.before, h.first⟩
      · exact h
  function name f args m' hf h := by
    unfold host at hf
    dsimp only at hf
    split at hf
    case isFalse => simp at hf
    obtain rfl := Option.some.inj hf
    unfold callStaticFile
    split
    · exact staticFile_tells h _
    · exact h

theorem renderPage_tells (hm : m.Faithful) (name : String) (context : Scope) :
    w.Tells t m (w.renderPage t name context m).2 := by
  have hhost := w.host_keeps_tells t m
  have hload : w.Tells t m (w.load t name m).2 := hhost.template name m (.refl hm)
  unfold renderPage
  split
  · rename_i heq
    rwa [heq] at hload
  · rename_i template memory heq
    rw [heq] at hload
    exact (Machine.runsKeep hhost stepLimit).runBody template.body _ hload

end Workshop
end Template

namespace Run

open Template

variable {w : Workshop} {h : Highlighter} {output : Path}

section Engine

variable {σ : Type} {r r' : Run σ}

theorem engine_of_ensureParent {path : Path} (hok : r.ensureParent path = (r', none)) :
    r'.engine = r.engine := by
  unfold ensureParent at hok
  split at hok
  all_goals
    obtain ⟨rfl, -⟩ := Prod.mk.inj hok
    rfl

theorem engine_of_copyEntry {target : Path} {f : FileTree.Found}
    (hok : copyEntry target r f = (r', none)) : r'.engine = r.engine := by
  have hends := copyEntry_ends target r f
  rw [hok] at hends
  cases hends with
  | skipped => rfl
  | copied _ hparent => exact (engine_of_ensureParent hparent :)

theorem engine_of_copyResource {resource : Resource}
    (hok : copyResource output r resource = (r', none)) : r'.engine = r.engine := by
  unfold copyResource at hok
  split at hok
  · simp at hok
  · exact advance_induction (I := fun _ r' => r'.engine = r.engine) rfl
      (fun _ _ _ _ _ hr₁ hcopy => (engine_of_copyEntry hcopy).trans hr₁) hok

theorem engine_of_copies {resources : List Resource}
    (hok : advance (copyResource output) r resources = (r', none)) : r'.engine = r.engine :=
  advance_induction (I := fun _ r' => r'.engine = r.engine) rfl
    (fun _ _ _ _ _ hr₁ hcopy => (engine_of_copyResource hcopy).trans hr₁) hok

theorem engine_of_writePage {link text : String} (hok : r.writePage output link text = (r', none)) :
    r'.engine = r.engine := by
  have hends := writePage_ends output r link text
  rw [hok] at hends
  cases hends with
  | written hparent => exact (engine_of_ensureParent hparent :)

end Engine

variable {r r₁ r₂ r₃ r' : Run Memory} {pages : List PlannedPage} {p : PlannedPage}
variable {name address : String}

/-- The answers that a page gets are about the files as they were before it was written. -/
theorem renderPage_tells (hm : r.engine.Faithful)
    (hok : renderPage w.engine h output r p = (r', none)) : w.Tells r.tree r.engine r'.engine := by
  have hends := renderPage_ends w.engine h output r p
  rw [hok] at hends
  cases hends with
  | @written page context text engine r₁ _ hrender hwrite =>
    have hpage : w.Tells r.tree r.engine
        (w.engine.render r.tree page.template context r.engine).2 :=
      Workshop.renderPage_tells hm _ _
    rw [hrender] at hpage
    have hengine : r₁.engine = engine := engine_of_writePage hwrite
    exact hengine ▸ hpage

/-- The turn in which a run asks for a static file for the first time: the pages in `before` have
been written, and `p` is rendered next. -/
structure FirstTurn (w : Workshop) (h : Highlighter) (output : Path) (r₁ : Run Memory)
    (name address : String) (before : List PlannedPage) (p : PlannedPage) (r₂ r₃ : Run Memory) :
    Prop where
  come : advance (renderPage w.engine h output) r₁ before = (r₂, none)
  turn : renderPage w.engine h output r₂ p = (r₃, none)
  unasked : ∀ other, (name, other) ∉ r₂.engine.answers
  answered : (name, address) ∈ r₃.engine.answers
  address_eq : address = w.addressOf r₂.tree name

theorem advance_answers (hm : r.engine.Faithful)
    (hrun : advance (renderPage w.engine h output) r pages = (r', none)) :
    r.engine.Answers (fun name address => ∃ before p after r₂ r₃, pages = before ++ p :: after ∧
      FirstTurn w h output r name address before p r₂ r₃) r'.engine := by
  induction pages generalizing r with
  | nil =>
    obtain ⟨rfl, -⟩ := Prod.mk.inj hrun
    exact .refl hm
  | cons p pages ih =>
    have hfull := hrun
    rw [advance_cons] at hrun
    split at hrun
    case h_2 => simp at hrun
    rename_i r₁ hturn
    have hpage := renderPage_tells hm hturn
    refine hpage.append (ih hpage.faithful hrun) ?_ ?_
    · exact fun name address hunasked hanswered haddress =>
        ⟨[], p, pages, r, r₁, rfl, rfl, hturn, hunasked, hanswered, haddress⟩
    · rintro name address ⟨before, q, after, r₂, r₃, rfl, hfirst⟩
      refine ⟨p :: before, q, after, r₂, r₃, rfl, { hfirst with come := ?_ }⟩
      rw [advance_cons, hturn]
      exact hfirst.come

/-- Some pages write at most the files that their links lead to. -/
theorem advance_renderPage_grows {σ : Type} {e : Engine σ} {r r' : Run σ} (hs : r.tree.Sorted)
    (hrun : advance (renderPage e h output) r pages = (r', none)) :
    Grows r.tree (fun loc => ∃ page, .ok page ∈ pages ∧
      r'.tree.follow true (output.join ⟨page.link⟩) = .ok loc) r'.tree := by
  refine advance_induction (I := fun done r' => Grows r.tree (fun loc => ∃ page, .ok page ∈ done ∧
    r'.tree.follow true (output.join ⟨page.link⟩) = .ok loc) r'.tree) (.refl hs) ?_ hrun
  intro done p r₁ r₂ _ hdone hturn
  obtain ⟨page, written, rfl, ⟨source, rfl⟩, hgrows, -⟩ := renderPage_grows hdone.sorted hturn
  refine hdone.append hgrows ?_ fun loc hloc => ⟨page, by simp, hloc⟩
  rintro loc bytes he ⟨earlier, hmem, hloc⟩
  exact ⟨earlier, List.mem_append_left _ hmem, hgrows.follow hloc he⟩

theorem addressOf_of_grows {t t' : FileTree} {P : Location → Prop} (hgrows : Grows t P t')
    (hfile : t.isFile (w.output.join ⟨name⟩) = true)
    (hno : ∀ loc, P loc → t'.follow true (w.output.join ⟨name⟩) ≠ .ok loc) :
    w.addressOf t' name = w.addressOf t name := by
  obtain ⟨loc, bytes, hloc, he⟩ := FileTree.isFile_iff.1 hfile
  have hloc' := hgrows.follow hloc he
  obtain ⟨bytes', he'⟩ := hgrows.isFileAt he
  have hsame := (hgrows.file loc bytes' he').resolve_right fun hP => hno loc hP hloc'
  obtain rfl : bytes' = bytes := Entry.file.inj (Option.some.inj (hsame.symm.trans he))
  refine Workshop.addressOf_eq_of_read ?_
  rw [FileTree.read_eq_ok_iff.2 ⟨loc, hloc, he⟩, FileTree.read_eq_ok_iff.2 ⟨loc, hloc', he'⟩]

end Run

open Run Template

variable {w : Workshop} {h : Highlighter} {output : Path} {r r' : Run Memory}

/-- The addresses of static files in a run that succeeds. A call with one argument is answered, and
the answer is noted; any other call fails. All answers for one name are the same: what the engine
had answered before the run, or else the address that the file had when a page asked for it first.
At the end of the run this is still the address of a file that was there then and to which none of
the pages from then on was written; of a file that was not there then, it is the address at the end
just if the file is not there either. -/
theorem Site.answers_of_generate {s : Site} (hs : r.tree.Sorted) (hm : r.engine.Faithful)
    (hrun : s.generate w.engine h output r = (r', none)) :
    (∀ t args m asked, args.single = .ok asked → ∃ address m',
      w.callStaticFile t args m = (.ok (.text address), m') ∧
      m'.answers = m.answers ++ [(asked.display, address)]) ∧
    (∀ t args m f, args.single = .error f → w.callStaticFile t args m = (.error f, m)) ∧
    r'.engine.Faithful ∧ r.engine.answers <+: r'.engine.answers ∧
    ∀ name address, (name, address) ∈ r'.engine.answers →
      (∀ other, (name, other) ∈ r'.engine.answers → other = address) ∧
      ((name, address) ∈ r.engine.answers ∨
        ∃ before p after r₂ r₃, s.pages = before ++ p :: after ∧
          FirstTurn w h output (s.copied output r).1 name address before p r₂ r₃ ∧
          (r₂.tree.isFile (w.output.join ⟨name⟩) = true →
            (∀ page loc, .ok page ∈ p :: after →
              r'.tree.follow true (output.join ⟨page.link⟩) = .ok loc →
              r'.tree.follow true (w.output.join ⟨name⟩) ≠ .ok loc) →
            address = w.addressOf r'.tree name) ∧
          (r₂.tree.isFile (w.output.join ⟨name⟩) = false →
            (address = w.addressOf r'.tree name ↔
              r'.tree.isFile (w.output.join ⟨name⟩) = false))) := by
  obtain ⟨-, r₁, r₄, hcopied, hpages, rfl⟩ := generate_eq_ok_iff.1 hrun
  have hcopy : (s.copied output r).1 = r₁ := congrArg Prod.fst hcopied
  have hs₁ : (s.copied output r).1.tree.Sorted :=
    advance_invariant (I := fun r => r.tree.Sorted) hs fun _ hmem _ hr =>
      (writes_copyResource hmem hr).sorted
  have hengine : r₁.engine = r.engine := (engine_of_copies hcopied :)
  rw [hcopy] at hs₁
  have hanswers := advance_answers (hengine ▸ hm) hpages
  rw [hengine] at hanswers
  have hsame : ∀ name address, (name, address) ∈ r₄.engine.answers →
      ∀ other, (name, other) ∈ r₄.engine.answers → other = address := by
    intro name address haddress other hother
    have hlookup := (hanswers.faithful name address).1 haddress
    exact Option.some.inj (((hanswers.faithful name other).1 hother).symm.trans hlookup)
  refine ⟨fun _ _ _ _ => Workshop.callStaticFile_of_single,
    fun _ _ _ _ => Workshop.callStaticFile_of_error, hanswers.faithful, hanswers.before,
    fun name address hmem => ⟨hsame name address hmem, ?_⟩⟩
  refine (hanswers.first name address hmem).imp_right ?_
  rintro ⟨-, before, p, after, r₂, r₃, hsplit, hfirst⟩
  refine ⟨before, p, after, r₂, r₃, hsplit, hcopy ▸ hfirst, fun hfile hno => ?_, fun hmissing => ?_⟩
  · -- the tree when the page is rendered, and the rest of the run from it
    have hs₂ := (advance_renderPage_grows hs₁ hfirst.come).sorted
    have hrest : advance (renderPage w.engine h output) r₂ (p :: after) = (r₄, none) := by
      rw [hsplit, advance_append, hfirst.come] at hpages
      exact hpages
    have hgrows := advance_renderPage_grows hs₂ hrest
    rw [hfirst.address_eq]
    refine (addressOf_of_grows hgrows hfile ?_).symm
    rintro loc ⟨page, hpage, hloc⟩
    exact hno page loc hpage hloc
  · rw [hfirst.address_eq, Workshop.addressOf_eq_self_iff.2 hmissing, eq_comm]
    exact Workshop.addressOf_eq_self_iff

namespace Site

/-- A site of two pages with fixed names. The first names the second as a static file. -/
def scripted : Site :=
  let templates := { common := [("a.html", "a.t"), ("b.js", "b.t")] }
  let config := Config.Document.resolve { templates } ⟨"."⟩
  { model := ⟨⟨"src"⟩, [], List.nodup_nil⟩, config, links := .ofConfig config ⟨"src"⟩ }

def scriptedShop : Workshop := ⟨⟨"."⟩, ⟨"out"⟩, scripted.model, scripted.links, .plain⟩

def scriptedRun : Run Memory where
  tree := ⟨[
    (["a.t"], .file "\x7b\x7b static_file('b.js') \x7d\x7d".toUTF8), (["b.t"], .file "x".toUTF8),
    (["out"], .dir)], []⟩
  engine := {}
  progress := .fresh false

theorem index_scripted : scripted.index = ⟨[], [], []⟩ := by
  simp [index, scripted, Index.ofTypes, Index.sortBy, Index.firsts, Index.groupBy,
    Index.distinctNames, Text.sortNames, Text.dropRepeats]

theorem generate_scripted :
    (scripted.generate scriptedShop.engine .plain ⟨"out"⟩ scriptedRun).2 = none ∧
    (scripted.generate scriptedShop.engine .plain ⟨"out"⟩ scriptedRun).1.engine.answers =
      [("b.js", "b.js")] ∧
    (scripted.generate scriptedShop.engine .plain ⟨"out"⟩ scriptedRun).1.tree.isFile
      ⟨"out/b.js"⟩ = true := by
  simp only [generate, pages, pageCount, index_scripted]
  decide +kernel

/-- A fresh run of the site when its first page names a file that is in the output. -/
def styledRun : Run Memory where
  tree := ⟨[
    (["a.t"], .file "\x7b\x7b static_file('s.css') \x7d\x7d".toUTF8), (["b.t"], .file "x".toUTF8),
    (["out"], .dir), (["out", "s.css"], .file "x".toUTF8)], []⟩
  engine := {}
  progress := .fresh false

theorem generate_styled :
    (scripted.generate scriptedShop.engine .plain ⟨"out"⟩ styledRun).2 = none ∧
    (scripted.generate scriptedShop.engine .plain ⟨"out"⟩ styledRun).1.engine.answers =
      [("s.css", "s.css?2d711642")] := by
  simp only [generate, pages, pageCount, index_scripted]
  decide +kernel

theorem not_follow_styled {page : Page} (hpage : .ok page ∈ scripted.pages) {loc : Location}
    (hloc : (scripted.generate scriptedShop.engine .plain ⟨"out"⟩ styledRun).1.tree.follow true
      (Path.join ⟨"out"⟩ ⟨page.link⟩) = .ok loc) :
    (scripted.generate scriptedShop.engine .plain ⟨"out"⟩ styledRun).1.tree.follow true
      (Path.join ⟨"out"⟩ ⟨"s.css"⟩) ≠ .ok loc := by
  have hlinks : scripted.pages.filterMap (fun p => p.toOption.map Page.link) =
      ["a.html", "b.js"] := by
    simp only [pages, index_scripted]
    decide +kernel
  have hends : ∀ link ∈ ["a.html", "b.js", "s.css"],
      (scripted.generate scriptedShop.engine .plain ⟨"out"⟩ styledRun).1.tree.follow true
        (Path.join ⟨"out"⟩ ⟨link⟩) = .ok ["out", link] := by
    simp only [generate, pages, pageCount, index_scripted]
    decide +kernel
  have hlink : page.link ∈ ["a.html", "b.js"] := by
    rw [← hlinks, List.mem_filterMap]
    exact ⟨_, hpage, rfl⟩
  intro heq
  have hpage : page.link ∈ ["a.html", "b.js", "s.css"] := by
    simp only [List.mem_cons] at hlink ⊢
    tauto
  have hplace : Except.ok ["out", page.link] = Except.ok ["out", "s.css"] :=
    (hends page.link hpage).symm.trans (hloc.trans (heq.symm.trans (hends "s.css" (by simp))))
  have hsame : page.link = "s.css" := by simpa using Except.ok.inj hplace
  rw [hsame] at hlink
  simp at hlink

/-- The site asks for a file that is not there yet and, in another run, for one that is. -/
theorem answers_of_generate_scripted :
    (scripted.generate scriptedShop.engine .plain ⟨"out"⟩ scriptedRun).2 = none ∧
    (∃ before p after r₂ r₃, scripted.pages = before ++ p :: after ∧
      FirstTurn scriptedShop .plain ⟨"out"⟩ (scripted.copied ⟨"out"⟩ scriptedRun).1 "b.js" "b.js"
        before p r₂ r₃) ∧
    (scripted.generate scriptedShop.engine .plain ⟨"out"⟩ styledRun).2 = none ∧
    ("s.css", "s.css?2d711642") ∈
      (scripted.generate scriptedShop.engine .plain ⟨"out"⟩ styledRun).1.engine.answers ∧
    "s.css?2d711642" = scriptedShop.addressOf
      (scripted.generate scriptedShop.engine .plain ⟨"out"⟩ styledRun).1.tree "s.css" := by
  obtain ⟨hnone, hanswers, -⟩ := generate_scripted
  obtain ⟨hnone', hanswers'⟩ := generate_styled
  have hmem : ("s.css", "s.css?2d711642") ∈
      (scripted.generate scriptedShop.engine .plain ⟨"out"⟩ styledRun).1.engine.answers := by
    simp [hanswers']
  refine ⟨hnone, ?missing, hnone', hmem, ?present⟩
  case missing =>
    have hsorted : scriptedRun.tree.Sorted :=
      ⟨⟨by decide +kernel, by decide +kernel, by decide +kernel⟩, by decide +kernel⟩
    obtain ⟨-, -, -, -, hfirst⟩ :=
      answers_of_generate hsorted Memory.faithful_empty (Prod.ext rfl hnone)
    obtain ⟨-, hbefore | ⟨before, p, after, r₂, r₃, hpages, hturn, -⟩⟩ :=
      hfirst "b.js" "b.js" (by simp [hanswers])
    · simp [scriptedRun] at hbefore
    · exact ⟨before, p, after, r₂, r₃, hpages, hturn⟩
  case present =>
    have hsorted : styledRun.tree.Sorted :=
      ⟨⟨by decide +kernel, by decide +kernel, by decide +kernel⟩, by decide +kernel⟩
    obtain ⟨-, -, -, -, hfirst⟩ :=
      answers_of_generate hsorted Memory.faithful_empty (Prod.ext rfl hnone')
    obtain ⟨-, hbefore | ⟨before, p, after, r₂, r₃, hpages, hturn, hkept, -⟩⟩ :=
      hfirst "s.css" "s.css?2d711642" hmem
    · simp [styledRun] at hbefore
    · have hhash : scriptedShop.addressOf r₂.tree "s.css" ≠ "s.css" := by
        rw [← hturn.address_eq]
        decide
      apply hkept
      · exact Bool.ne_false_iff.1 (mt Workshop.addressOf_eq_self_iff.2 hhash)
      · intro page loc hpage hloc
        apply not_follow_styled _ hloc
        rw [hpages]
        exact List.mem_append_right _ hpage

/-- The first page asks for the second before it is there, and is not told the address that the file
has in the end. -/
theorem generate_scripted_outdates_answer :
    (scripted.generate scriptedShop.engine .plain ⟨"out"⟩ scriptedRun).2 = none ∧
    ("b.js", "b.js") ∈
      (scripted.generate scriptedShop.engine .plain ⟨"out"⟩ scriptedRun).1.engine.answers ∧
    scriptedShop.addressOf
        (scripted.generate scriptedShop.engine .plain ⟨"out"⟩ scriptedRun).1.tree "b.js" ≠
      "b.js" := by
  obtain ⟨hnone, hanswers, hfile⟩ := generate_scripted
  refine ⟨hnone, by simp [hanswers], fun heq => ?_⟩
  exact absurd hfile (Bool.eq_false_iff.1 (Workshop.addressOf_eq_self_iff.1 heq))

end Site

end DocSite
