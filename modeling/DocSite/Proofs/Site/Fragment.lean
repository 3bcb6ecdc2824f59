import DocSite.Proofs.Site.Closure
import DocSite.Proofs.Site.Highlight
import DocSite.Proofs.Site.Patterns
import DocSite.Proofs.Site.Written

namespace DocSite

open Highlight (Lined Row LeadsTo Numbered idsOf)

variable {σ : Type} {s : Site} {r r' r₁ : Run σ} {output : Path} {e : Engine σ} {h : Highlighter}
variable {d : Decl} {m : Member} {page : Page} {context : PageContext} {p : PlannedPage}
variable {file : Path} {link : String} {before after : List PlannedPage}

namespace Run

theorem exists_context_of_renderPage (hok : renderPage e h output r p = (r', none)) :
    ∃ page context, p = .ok page ∧ r.fullContext h page = .ok context ∧
      r'.written = r.written ++ [⟨page.sort, page.link, context⟩] := by
  have hends := renderPage_ends e h output r p
  rw [hok] at hends
  cases hends with
  | @written page context text engine r₁ hcontext _ hwrite =>
    have hkeeps := writePage_keeps { r with engine } output page.link text
    rw [hwrite] at hkeeps
    exact ⟨page, context, rfl, hcontext, by rw [note_written, hkeeps.written]⟩

/-- In a run that ends without an error, each planned page has its turn, and what was written for it
then stays. -/
theorem exists_turn (hrun : advance (renderPage e h output) r (before ++ p :: after) = (r', none)) :
    ∃ r₁ page context, advance (renderPage e h output) r before = (r₁, none) ∧ p = .ok page ∧
      r₁.fullContext h page = .ok context ∧ ⟨page.sort, page.link, context⟩ ∈ r'.written := by
  rw [advance_append] at hrun
  split at hrun
  case h_2 => simp at hrun
  rename_i r₁ hbefore
  rw [advance_cons] at hrun
  split at hrun
  case h_2 => simp at hrun
  rename_i r₂ hturn
  obtain ⟨page, context, rfl, hcontext, hwritten⟩ := exists_context_of_renderPage hturn
  refine ⟨r₁, page, context, hbefore, rfl, hcontext, ?_⟩
  refine advance_induction (I := fun _ r => ⟨page.sort, page.link, context⟩ ∈ r.written)
    (by simp [hwritten]) (fun _ _ _ _ _ hmem hok => ?_) hrun
  obtain ⟨_, _, -, -, hnext⟩ := exists_context_of_renderPage hok
  rw [hnext]
  exact List.mem_append_left _ hmem

theorem fullContext_of_sourceFile (hpage : page.sourceFile = some file)
    (hok : r.fullContext h page = .ok context) : ∃ bytes, r.tree.read file = .ok bytes ∧
      context = { page.context with source := some (h.file (Text.ofBytes bytes)) } := by
  unfold fullContext at hok
  rw [hpage] at hok
  dsimp only at hok
  split at hok
  · simp at hok
  · rename_i bytes hread
    exact ⟨bytes, hread, (Except.ok.inj hok).symm⟩

end Run

/-- What a run read for the source page of a file: when it came to that page, the file held these
bytes, under the path that the first type declared in it gives. -/
inductive Site.ReadsSource (s : Site) (e : Engine σ) (h : Highlighter) (output : Path) (r : Run σ)
    (file : Path) (bytes : ByteArray) : Prop
  | intro {first : Decl} {spelling : Path} {before after : List PlannedPage} {page : Page}
      {r₁ : Run σ} (hfirst : first ∈ s.model.types) (hspelling : first.sourceFile? = some spelling)
      (hsame : spelling.SamePlace file) (hpages : s.pages = before ++ .ok page :: after)
      (hcome : Run.advance (Run.renderPage e h output) (s.copied output r).1 before = (r₁, none))
      (hpage : page.sourceFile = some spelling) (hread : r₁.tree.read spelling = .ok bytes)

namespace Site

/-- Each planned page has its turn in a run that ends without an error. -/
theorem exists_turn_of_mem (hrun : s.generate e h output r = (r', none)) (hp : p ∈ s.pages) :
    ∃ before after r₁ page context, p = .ok page ∧ s.pages = before ++ .ok page :: after ∧
      Run.advance (Run.renderPage e h output) (s.copied output r).1 before = (r₁, none) ∧
      r₁.fullContext h page = .ok context ∧ ⟨page.sort, page.link, context⟩ ∈ r'.written := by
  obtain ⟨before, after, hpages⟩ := List.append_of_mem hp
  obtain ⟨-, r₀, r₂, hcopy, hrender, rfl⟩ := generate_eq_ok_iff.1 hrun
  have hcopied : (s.copied output r).1 = r₀ := congrArg Prod.fst hcopy
  rw [hpages] at hrender
  obtain ⟨r₁, page, context, hbefore, rfl, hcontext, hwritten⟩ := Run.exists_turn hrender
  exact ⟨before, after, r₁, page, context, rfl, hpages, hcopied ▸ hbefore, hcontext, hwritten⟩

/-- The source page of a declaring file is written with what the file holds when its turn comes. -/
theorem exists_source_written (hrun : s.generate e h output r = (r', none))
    (hd : d ∈ s.model.types) (hfile : d.sourceFile? = some file) :
    ∃ link bytes w, s.links.sourcePage file = .ok link ∧ s.ReadsSource e h output r file bytes ∧
      w ∈ r'.written ∧ w.sort = .ofSource ∧ w.link = link ∧
      w.context.source = some (h.file (Text.ofBytes bytes)) := by
  have hindex : d ∈ s.index.types := mem_index_types.2 hd
  obtain ⟨⟨first, spelling⟩, hmem, hsame⟩ := Index.exists_mem_sources hindex hfile
  obtain ⟨hfirst, hspelling⟩ := Index.mem_sourcesFrom hmem
  obtain ⟨-, -, -, above, -, habove, -⟩ :=
    exists_turn_of_mem hrun (Site.classPage_mem_pages hfirst)
  obtain ⟨before, after, r₁, page, context, hpage, hpages, hcome, hcontext, hwritten⟩ :=
    exists_turn_of_mem hrun (Site.sourcePage_mem_pages hfirst hmem habove)
  obtain ⟨hlink, hsort, -⟩ := Site.sourcePage_eq_ok hpage hspelling
  have hsource : page.sourceFile = some spelling := by
    obtain ⟨link, -, hok⟩ := bind_eq_ok.1 hpage
    rw [← Except.ok.inj hok]
  obtain ⟨bytes, hread, rfl⟩ := Run.fullContext_of_sourceFile hsource hcontext
  rw [Links.sourcePage_eq_of_samePlace hsame] at hlink
  exact ⟨page.link, bytes, _, hlink,
    .intro (Index.mem_of_mem_types hfirst) hspelling hsame hpages hcome hsource hread, hwritten,
    hsort, rfl, rfl⟩

end Site

namespace Links

variable {l : Links}

theorem sourceLine_of_line (hlink : l.sourcePage file = .ok link) (n : Nat) :
    l.sourceLine file (some n) = .ok (link ++ "#" ++ toString n) := by
  rw [sourceLine, hlink]
  rfl

theorem sourceLink_of_line (hfile : d.sourceFile? = some file)
    (hlink : l.sourcePage file = .ok link) {n : Nat} (hline : d.line = some n) :
    l.sourceLink d true = .ok (link ++ "#" ++ toString n) := by
  rw [sourceLink, hfile, hline]
  exact sourceLine_of_line hlink n

theorem memberSourceLink_of_line (hfile : d.sourceFile? = some file)
    (hlink : l.sourcePage file = .ok link) {n : Nat} (hline : m.line = some n) :
    l.memberSourceLink d m = .ok (link ++ "#" ++ toString n) := by
  rw [memberSourceLink, hfile, hline]
  exact sourceLine_of_line hlink n

end Links

/-- Line anchors hit their line. A file without colours has a row for each line of the source, in
order and numbered from one, and each number is an identifier just once. So in a run that ends
without an error, where a link to a type or a member ends in the number of a line of its file, the
page before the fragment was written with the lines of the file, and the fragment leads to the row
of that line. -/
theorem fragments_lead_to_lines :
    (∀ source, ∃ lines rows, Numbered source (Highlighter.plain.file source) lines rows ∧
      ∀ k, 1 ≤ k → k ≤ lines.length →
        (idsOf (Highlighter.plain.file source)).count (toString k) = 1) ∧
    ∀ (σ : Type) (s : Site) (e : Engine σ) (output : Path) (r r' : Run σ),
      s.generate e .plain output r = (r', none) → ∀ d ∈ s.model.types, ∀ file,
      d.sourceFile? = some file → ∃ link bytes w, s.links.sourcePage file = .ok link ∧
        s.ReadsSource e .plain output r file bytes ∧ w ∈ r'.written ∧ w.sort = .ofSource ∧
        w.link = link ∧
        w.context.source = some (Highlighter.plain.file (Text.ofBytes bytes)) ∧
        ∀ lines, Lined (Text.ofBytes bytes).toList lines → ∀ k line, lines[k]? = some line →
          (d.line = some (k + 1) →
            s.links.sourceLink d true = .ok (link ++ "#" ++ toString (k + 1))) ∧
          (∀ m : Member, m.line = some (k + 1) →
            s.links.memberSourceLink d m = .ok (link ++ "#" ++ toString (k + 1))) ∧
          ∃ label content row, Row lines.length (k + 1) line label content row ∧
            LeadsTo (Highlighter.plain.file (Text.ofBytes bytes)) (toString (k + 1)) row := by
  rw [Highlight.plain_file]
  refine ⟨fun source => ?_, fun σ s e output r r' hrun d hd file hfile => ?_⟩
  · have hnumbered := Highlight.numbered_plainFile source
    exact ⟨_, _, hnumbered, fun k => hnumbered.count_eq_one⟩
  · obtain ⟨link, bytes, w, hlink, hreads, hw, hsort, hwlink, hsource⟩ :=
      Site.exists_source_written hrun hd hfile
    rw [Highlight.plain_file] at hsource
    refine ⟨link, bytes, w, hlink, hreads, hw, hsort, hwlink, hsource,
      fun lines hlines k line hline => ⟨Links.sourceLink_of_line hfile hlink,
        fun m => Links.memberSourceLink_of_line hfile hlink, ?_⟩⟩
    obtain rfl := Highlight.lined_iff.1 hlines
    exact (Highlight.numbered_plainFile _).leadsTo hline

namespace Site

def threeLines : String := "<?php\r\n\tnamespace N;\nclass A \x7b\x7d"

/-- A run over an empty output and a declaring file with three lines. -/
def readRun : Run Unit where
  tree := ⟨[(["out"], .dir), (["src"], .dir), (["src", "A.php"], .file threeLines.toUTF8)], []⟩
  engine := ()
  progress := .fresh false

theorem generate_readRun_eq_none : (small.generate blank .plain ⟨"out"⟩ readRun).2 = none := by
  simp only [generate, pages, pageCount, index_small]
  decide +kernel

theorem length_pages_small : small.pages.length = 5 := by
  simp only [pages, index_small]
  decide +kernel

theorem read_readRun : ∀ n < 6, ((Run.advance (Run.renderPage blank .plain ⟨"out"⟩)
    (small.copied ⟨"out"⟩ readRun).1 (small.pages.take n)).1.tree.read ⟨"src/A.php"⟩).toOption =
      some threeLines.toUTF8 := by
  simp only [copied, pages, pageCount, index_small]
  decide +kernel

theorem bytes_eq_of_readsSource {bytes : ByteArray}
    (h : small.ReadsSource blank .plain ⟨"out"⟩ readRun ⟨"src/A.php"⟩ bytes) :
    bytes = threeLines.toUTF8 := by
  obtain ⟨hfirst, hspelling, -, hpages, hcome, -, hread⟩ := h
  rename_i first spelling before page after r₁
  obtain rfl := List.mem_singleton.1 hfirst
  obtain rfl : (⟨"src/A.php"⟩ : Path) = spelling := Option.some.inj hspelling
  have hlength := congrArg List.length hpages
  rw [length_pages_small, List.length_append, List.length_cons] at hlength
  have htake : small.pages.take before.length = before := by rw [hpages, List.take_left]
  have hfile := read_readRun before.length (by omega)
  rw [htake, hcome, hread] at hfile
  exact Option.some.inj hfile

end Site

/-- The link of a type to its third line. -/
theorem fragments_lead_to_lines_third : ∃ r',
    Site.small.generate Site.blank .plain ⟨"out"⟩ Site.readRun = (r', none) ∧
    Site.onlyType ∈ Site.small.model.types ∧ Site.onlyType.sourceFile? = some ⟨"src/A.php"⟩ ∧
    Site.small.links.sourceLink Site.onlyType true = .ok "source-A.php.html#3" ∧
    ∃ w ∈ r'.written, w.link = "source-A.php.html" ∧ ∃ html, w.context.source = some html ∧
      (idsOf html).count "3" = 1 ∧ ∃ label content row,
        Row 3 3 "class A \x7b\x7d" label content row ∧ LeadsTo html "3" row := by
  obtain ⟨r', hrun⟩ : ∃ r',
      Site.small.generate Site.blank .plain ⟨"out"⟩ Site.readRun = (r', none) :=
    ⟨_, Prod.ext rfl Site.generate_readRun_eq_none⟩
  have hfile : Site.onlyType.sourceFile? = some ⟨"src/A.php"⟩ := rfl
  obtain ⟨hnumbered, hlinks⟩ := fragments_lead_to_lines
  obtain ⟨link, bytes, w, hlink, hreads, hw, -, hwlink, hsource, hlines⟩ :=
    hlinks Unit Site.small Site.blank ⟨"out"⟩ Site.readRun _ hrun _ (.head _) _ hfile
  have hpage : Site.small.links.sourcePage ⟨"src/A.php"⟩ = .ok "source-A.php.html" := rfl
  have htext : Text.ofBytes bytes = Site.threeLines := by
    rw [Site.bytes_eq_of_readsSource hreads]
    decide +kernel
  have hlined : Lined Site.threeLines.toList ["<?php", "\tnamespace N;", "class A \x7b\x7d"] :=
    Highlight.lined_iff.2 (by decide +kernel)
  obtain rfl := eq_of_eq_ok hlink hpage
  rw [htext] at hlines hsource
  obtain ⟨haddress, -, hrow⟩ := hlines _ hlined 2 _ rfl
  obtain ⟨lines, rows, hrows, honce⟩ := hnumbered Site.threeLines
  obtain rfl := (hrows.lined _).1 hlined
  have honce := honce 3 (by decide) (by decide)
  have hthree : toString 3 = "3" := by decide
  have hfragment : "source-A.php.html" ++ "#" ++ "3" = "source-A.php.html#3" := by decide
  rw [hthree] at honce
  rw [hthree, hfragment] at haddress
  rw [hthree] at hrow
  exact ⟨r', hrun, .head _, hfile, haddress rfl, w, hw, hwlink, _, hsource, honce, hrow⟩

end DocSite
