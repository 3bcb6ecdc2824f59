import DocSite.Proofs.InStep
import DocSite.Proofs.Lookup
import DocSite.Proofs.Site.View
import DocSite.Proofs.Text.Markup
import DocSite.Site.Label
import Mathlib.Data.List.ReduceOption
import Mathlib.Data.List.TakeWhile

namespace DocSite

open Text (Piece)

namespace Label

variable {m : Model} {l : Links} {ns doc name gap label : String} {names : List String}
variable {link : Option String} {links : List (Option String)} {pattern : String}

/-- The names of an annotation stand before its first blank with bars between them, and the label
behind the blanks that follow. -/
structure Divides (doc : String) (names : List String) (gap label : String) : Prop where
  whole : Text.trim doc = "|".intercalate names ++ gap ++ label
  ne_nil : names ≠ []
  plain : ∀ name ∈ names, ∀ c ∈ name.toList, c ≠ '|' ∧ Text.isBlank c = false
  blank : ∀ c ∈ gap.toList, Text.isBlank c = true
  gap_eq : gap = "" ↔ label = ""
  begins : BeginsPlainly label

theorem toList_intercalate (names : List String) :
    ("|".intercalate names).toList = Text.joinWith ['|'] (names.map String.toList) := by
  rw [String.toList_intercalate, Text.joinWith_eq_intercalate]
  rfl

theorem intercalate_splitAll (s : List Char) :
    "|".intercalate ((Text.splitAll '|' s).map String.ofList) = String.ofList s := by
  have hchars : ((Text.splitAll '|' s).map String.ofList).map String.toList =
      Text.splitAll '|' s := by
    simp [Function.comp_def]
  rw [← String.toList_inj, toList_intercalate, hchars, Text.joinWith_splitAll, String.toList_ofList]

theorem plain_splitAll {s : List Char} (hs : ∀ c ∈ s, Text.isBlank c = false) :
    ∀ name ∈ (Text.splitAll '|' s).map String.ofList, ∀ c ∈ name.toList,
      c ≠ '|' ∧ Text.isBlank c = false := by
  intro name hname c hc
  obtain ⟨part, hpart, rfl⟩ := List.mem_map.1 hname
  rw [String.toList_ofList] at hc
  refine ⟨?_, hs c ?_⟩
  · rintro rfl
    exact Text.not_mem_of_mem_splitAll hpart hc
  · rw [← Text.joinWith_splitAll '|' s]
    exact Text.mem_joinWith hpart hc

/-- What ends in no blank has more than blanks behind a blank. -/
theorem dropWhile_ne_nil {before after : List Char} {c : Char} (hc : Text.isBlank c = true)
    (hends : before ++ c :: after = [] ∨
      ∃ start d, before ++ c :: after = start ++ [d] ∧ Text.isBlank d = false) :
    after.dropWhile Text.isBlank ≠ [] := by
  intro hnil
  have hall : ∀ d ∈ c :: after, Text.isBlank d = true :=
    List.forall_mem_cons.2 ⟨hc, List.dropWhile_eq_nil_iff.1 hnil⟩
  obtain hempty | ⟨start, d, heq, hd⟩ := hends
  · simp at hempty
  · have hlast : d ∈ (c :: after).getLast? := by
      rw [Option.mem_def, ← List.getLast?_append_of_ne_nil before (List.cons_ne_nil c after), heq,
        List.getLast?_concat]
    exact absurd (hall d (List.mem_of_mem_getLast? hlast)) (by simp [hd])

theorem Divides.splitAll_eq (h : Divides doc names gap label) :
    (Text.splitAll '|' ("|".intercalate names).toList).map String.ofList = names := by
  rw [toList_intercalate, Text.splitAll_joinWith (by simpa using h.ne_nil)]
  · simp [Function.comp_def]
  · intro part hpart hbar
    obtain ⟨name, hname, rfl⟩ := List.mem_map.1 hpart
    exact (h.plain name hname _ hbar).1 rfl

theorem Divides.not_blank (h : Divides doc names gap label) :
    ∀ c ∈ ("|".intercalate names).toList, Text.isBlank c = false := by
  rw [toList_intercalate]
  refine Text.forall_mem_joinWith (by simp [Text.isBlank]) fun part hpart c hc => ?_
  obtain ⟨name, hname, rfl⟩ := List.mem_map.1 hpart
  exact (h.plain name hname c hc).2

theorem Divides.split_eq (h : Divides doc names gap label) : split doc = (names, label) := by
  cases hgap : gap.toList with
  | nil =>
    have hnone : gap = "" := String.toList_inj.1 hgap
    have hwhole : Text.trim doc = "|".intercalate names := by
      rw [h.whole, hnone, h.gap_eq.1 hnone, String.append_empty, String.append_empty]
    have hcut := Text.splitFirst_eq_none_iff.2 h.not_blank
    rw [split, hwhole, hcut, h.gap_eq.1 hnone]
    simp only [h.splitAll_eq]
  | cons c rest =>
    have hblank : ∀ d ∈ c :: rest, Text.isBlank d = true := hgap ▸ h.blank
    obtain ⟨hc, hrest⟩ := List.forall_mem_cons.1 hblank
    have hcut := Text.splitFirst_append_cons h.not_blank hc (rest ++ label.toList)
    have hlabel : (rest ++ label.toList).dropWhile Text.isBlank = label.toList := by
      rw [Text.dropWhile_append_of_all hrest, Text.dropWhile_eq_self_of_head h.begins]
    rw [split, h.whole, String.toList_append, String.toList_append, hgap, List.append_assoc,
      List.cons_append, hcut]
    simp only [h.splitAll_eq, hlabel, String.ofList_toList]

theorem exists_divides (doc : String) : ∃ names gap label, Divides doc names gap label := by
  have hne : ∀ s, (Text.splitAll '|' s).map String.ofList ≠ [] := by
    intro s
    simpa using Text.splitAll_ne_nil '|' s
  cases hcut : Text.splitFirst Text.isBlank (Text.trim doc).toList with
  | none =>
    refine ⟨(Text.splitAll '|' (Text.trim doc).toList).map String.ofList, "", "", ?_⟩
    constructor
    case whole =>
      rw [intercalate_splitAll, String.ofList_toList, String.append_empty, String.append_empty]
    case ne_nil => exact hne _
    case plain => exact plain_splitAll (Text.splitFirst_eq_none_iff.1 hcut)
    case blank => simp
    case gap_eq => simp
    case begins => simp [BeginsPlainly]
  | some cut =>
    obtain ⟨before, after⟩ := cut
    obtain ⟨c, htext, hc, hbefore⟩ := Text.exists_eq_of_splitFirst hcut
    refine ⟨(Text.splitAll '|' before).map String.ofList,
      String.ofList (c :: after.takeWhile Text.isBlank),
      String.ofList (after.dropWhile Text.isBlank), ?_⟩
    constructor
    case whole =>
      rw [intercalate_splitAll, ← String.ofList_append, ← String.ofList_append, ← String.toList_inj,
        htext, String.toList_ofList, List.append_assoc, List.cons_append,
        List.takeWhile_append_dropWhile]
    case ne_nil => exact hne _
    case plain => exact plain_splitAll hbefore
    case blank =>
      rw [String.toList_ofList]
      exact List.forall_mem_cons.2 ⟨hc, List.all_eq_true.1 List.all_takeWhile⟩
    case gap_eq =>
      have hlabel : after.dropWhile Text.isBlank ≠ [] :=
        dropWhile_ne_nil hc (htext ▸ Text.trim_cases doc)
      refine iff_of_false ?_ ?_
      · rw [← String.toList_inj, String.toList_ofList]
        exact List.cons_ne_nil _ _
      · rw [← String.toList_inj, String.toList_ofList]
        exact hlabel
    case begins =>
      intro d hd
      have hhead := List.head?_dropWhile_not Text.isBlank after
      rw [String.toList_ofList] at hd
      rw [hd] at hhead
      simpa using hhead

/-- The address that a name is linked to: that of the page of the type that it means. -/
inductive Linked (m : Model) (l : Links) (ns name : String) : Option String → Prop
  | known {d : Decl} {address : String} (hd : m.resolve? name ns = some d)
      (hpage : l.typePage d = .ok address) : Linked m l ns name (some address)
  | unknown (hnone : m.resolve? name ns = none) : Linked m l ns name none

/-- What is written for one name: its short form, in an anchor if there is an address. -/
def namePieces (ns name : String) : Option String → List Piece
  | some address => [.opening address, .text (Text.escapeHtml (shortIn ns name)), .closing]
  | none => [.text (Text.escapeHtml (shortIn ns name))]

/-- What is written for a label: nothing if it is empty. -/
def labelPieces (label : String) : List Piece :=
  if label = "" then [] else [.text (" " ++ Text.escapeHtml label)]

/-- What is written for an annotation: the names with bars between them, and the label. -/
def pieces (ns : String) (names : List String) (links : List (Option String)) (label : String) :
    List Piece :=
  [Piece.text "|"].intercalate (List.zipWith (namePieces ns) names links) ++ labelPieces label

def written (ns : String) (names : List String) (links : List (Option String)) (label : String) :
    String := Piece.joined Piece.html (pieces ns names links label)

def unlinked (ns : String) (names : List String) (links : List (Option String)) (label : String) :
    String := Piece.joined Piece.bare (pieces ns names links label)

/-- An anchor for each name that has a link, with the pattern itself as its address and no text. -/
def emptyAnchors (pattern : String) (links : List (Option String)) : String :=
  Piece.joined Piece.html (links.reduceOption.flatMap fun _ => [.opening pattern, .closing])

/-- What an annotation says: the short forms of its names with bars between them, and the label. -/
def plainText (ns : String) (names : List String) (label : String) : String :=
  "|".intercalate (names.map (shortIn ns)) ++ if label = "" then "" else " " ++ label

theorem ofName_eq_ok (h : Linked m l ns name link) :
    ofName m l ns name = .ok (Piece.joined Piece.html (namePieces ns name link)) := by
  cases h with
  | known hd hpage =>
    simp only [ofName, hd, hpage, namePieces, Piece.joined, Piece.html, String.append_empty,
      String.append_assoc]
    rfl
  | unknown hnone =>
    simp only [ofName, hnone, namePieces, Piece.joined, Piece.html, String.append_empty]

theorem forall₂_ofName (h : List.Forall₂ (Linked m l ns) names links) :
    List.Forall₂ (fun name out => ofName m l ns name = .ok out) names
      ((List.zipWith (namePieces ns) names links).map (Piece.joined Piece.html)) := by
  induction h with
  | nil => exact .nil
  | cons hlink _ ih => exact .cons (ofName_eq_ok hlink) ih

theorem joined_labelPieces (types : String) : (if label = "" then types
    else types ++ " " ++ Text.escapeHtml label) =
      types ++ Piece.joined Piece.html (labelPieces label) := by
  unfold labelPieces
  split
  · rw [Piece.joined, String.append_empty]
  · rw [Piece.joined, Piece.joined, Piece.html, String.append_empty, String.append_assoc]

theorem render_eq_ok (hsplit : split doc = (names, label))
    (h : List.Forall₂ (Linked m l ns) names links) :
    render m l ns doc = .ok (written ns names links label) := by
  rw [render, hsplit, written, pieces, Piece.joined_append, Piece.joined_intercalate,
    ← joined_labelPieces]
  simp only [mapM_eq_ok_of_forall₂ (forall₂_ofName h)]
  rfl

theorem exists_linked (hpattern : l.filenames.get? .classPage = some pattern) (m : Model)
    (ns name : String) : ∃ link, Linked m l ns name link := by
  cases hd : m.resolve? name ns with
  | none => exact ⟨none, .unknown hd⟩
  | some d => exact ⟨_, .known hd (Links.typePage_eq hpattern d)⟩

theorem exists_links (hpattern : l.filenames.get? .classPage = some pattern) (m : Model)
    (ns : String) (names : List String) : ∃ links, List.Forall₂ (Linked m l ns) names links := by
  choose link hlink using exists_linked hpattern m ns
  refine ⟨names.map link, ?_⟩
  rw [List.forall₂_map_right_iff, List.forall₂_same]
  exact fun name _ => hlink name

theorem joined_bare_namePieces (ns name : String) (link : Option String) :
    Piece.joined Piece.bare (namePieces ns name link) = Text.escapeHtml (shortIn ns name) := by
  cases link <;> simp [namePieces, Piece.joined, Piece.bare]

theorem joined_bare_labelPieces (label : String) : Piece.joined Piece.bare (labelPieces label) =
    Text.escapeHtml (if label = "" then "" else " " ++ label) := by
  have hblank : Text.escapeHtml " " = " " := by decide
  unfold labelPieces
  split
  · rfl
  · rw [Piece.joined, Piece.joined, Piece.bare, String.append_empty, Text.escapeHtml_append, hblank]

/-- Without its anchors the annotation is what it says, escaped. -/
theorem unlinked_eq (h : List.Forall₂ (Linked m l ns) names links) :
    unlinked ns names links label = Text.escapeHtml (plainText ns names label) := by
  have hnames : (List.zipWith (namePieces ns) names links).map (Piece.joined Piece.bare) =
      (names.map (shortIn ns)).map Text.escapeHtml := by
    induction h with
    | nil => rfl
    | cons _ _ ih =>
      rw [List.zipWith_cons_cons, List.map_cons, joined_bare_namePieces, ih, List.map_cons,
        List.map_cons]
  rw [unlinked, pieces, Piece.joined_append, Piece.joined_intercalate, hnames, plainText,
    Text.escapeHtml_append, Text.escapeHtml_intercalate (by decide), joined_bare_labelPieces,
    Piece.bare]

theorem harmless_labelText (label : String) :
    Text.Harmless (" " ++ Text.escapeHtml label).toList := by
  rw [← Text.marks_eq_nil_iff, Text.marks_append, Text.marks_eq_nil_iff.2
    (Text.harmless_escapeHtml label)]
  decide

/-- What is gathered from an annotation comes from its anchors if texts without marks give
nothing. -/
theorem flatMap_pieces {β : Type} {g : Piece → List β}
    (htext : ∀ s, Text.Harmless s.toList → g (.text s) = [])
    (h : List.Forall₂ (Linked m l ns) names links) :
    (pieces ns names links label).flatMap g =
      links.reduceOption.flatMap fun address => g (.opening address) ++ g .closing := by
  have hbar : g (.text "|") = [] := htext _ (Text.lacks_of_all (by decide))
  have hlabel : (labelPieces label).flatMap g = [] := by
    unfold labelPieces
    split
    · rfl
    · rw [List.flatMap_singleton, htext _ (harmless_labelText label)]
  rw [pieces, List.flatMap_append, Piece.flatMap_intercalate hbar, hlabel, List.append_nil]
  induction h with
  | nil => rfl
  | @cons name link _ _ _ _ ih =>
    have hname := htext _ (Text.harmless_escapeHtml (shortIn ns name))
    rw [List.zipWith_cons_cons, List.flatMap_cons, ih]
    cases link with
    | none => simp [namePieces, hname]
    | some address => simp [namePieces, hname]

theorem sound_namePieces (hlink : ∀ address, link = some address → '"' ∉ address.toList) :
    ∀ p ∈ namePieces ns name link, p.Sound := by
  intro p hp
  cases link with
  | none =>
    rw [List.mem_singleton.1 hp]
    exact Text.harmless_escapeHtml _
  | some address =>
    simp only [namePieces, List.mem_cons, List.not_mem_nil, or_false] at hp
    rcases hp with rfl | rfl | rfl
    · exact hlink address rfl
    · exact Text.harmless_escapeHtml _
    · exact True.intro

theorem sound_pieces (hlinks : ∀ address, some address ∈ links → '"' ∉ address.toList) :
    ∀ p ∈ pieces ns names links label, p.Sound := by
  intro p hp
  rcases List.mem_append.1 hp with hp | hp
  · rcases Piece.mem_intercalate hp with rfl | ⟨part, hpart, hp⟩
    · exact Text.lacks_of_all (by decide)
    · rw [← List.map_uncurry_zip_eq_zipWith] at hpart
      obtain ⟨⟨name, link⟩, hzip, rfl⟩ := List.mem_map.1 hpart
      exact sound_namePieces (fun address h => hlinks address (h ▸ (List.of_mem_zip hzip).2)) p hp
  · unfold labelPieces at hp
    split at hp
    · simp at hp
    · rw [List.mem_singleton.1 hp]
      exact harmless_labelText label

theorem address_of_linked (hpattern : l.filenames.get? .classPage = some pattern)
    (h : List.Forall₂ (Linked m l ns) names links) {address : String}
    (haddress : some address ∈ links) : ∃ token, address = Filenames.fill pattern token ∧
      ∀ c ∈ token.toList, isWordChar c = true ∨ c = '.' := by
  obtain ⟨name, -, hlink⟩ := exists_of_forall₂ h haddress
  cases hlink with
  | @known d _ hd hpage =>
    exact ⟨tokenOf d.name, eq_of_eq_ok hpage (Links.typePage_eq hpattern d), fun _ => mem_tokenOf⟩

theorem not_mark_of_token {c : Char} (hc : isWordChar c = true ∨ c = '.') :
    Text.isMark c = false := by
  rw [Bool.eq_false_iff, Text.isMark, ne_eq, List.contains_iff_mem]
  intro hmark
  simp only [List.mem_cons, List.not_mem_nil, or_false] at hmark
  rcases hmark with rfl | rfl | rfl | rfl <;> exact absurd hc (by decide)

theorem marks_opening (hpattern : l.filenames.get? .classPage = some pattern)
    (h : List.Forall₂ (Linked m l ns) names links) {address : String}
    (haddress : some address ∈ links) : Text.marks (Piece.opening address).html =
      Text.marks (Piece.opening pattern).html := by
  obtain ⟨token, rfl, htoken⟩ := address_of_linked hpattern h haddress
  have hmarks : Text.marks (Filenames.fill pattern token) = Text.marks pattern :=
    Filenames.filter_fill (by simp [placeholder, Text.isMark])
      fun c hc => not_mark_of_token (htoken c hc)
  simp only [Piece.html, Text.marks_append, hmarks]

theorem marks_written (hpattern : l.filenames.get? .classPage = some pattern)
    (h : List.Forall₂ (Linked m l ns) names links) :
    Text.marks (written ns names links label) = Text.marks (emptyAnchors pattern links) := by
  have htext : ∀ s, Text.Harmless s.toList → Text.marks (Piece.text s).html = [] :=
    fun s hs => Text.marks_eq_nil_iff.2 hs
  rw [written, emptyAnchors, Text.marks_joined, Text.marks_joined, flatMap_pieces htext h,
    List.flatMap_assoc]
  refine List.flatMap_congr fun address haddress => ?_
  rw [marks_opening hpattern h (List.reduceOption_mem_iff.1 haddress)]
  simp

/-- A reader finds the anchors that were written and nothing else. -/
theorem read_written (hpattern : l.filenames.get? .classPage = some pattern)
    (hquote : '"' ∉ pattern.toList) (h : List.Forall₂ (Linked m l ns) names links) :
    Text.Markup.read (written ns names links label) = {
      tags := links.reduceOption.flatMap fun address => ["a href=\"" ++ address ++ "\"", "/a"]
      content := (unlinked ns names links label).toList } := by
  have hsound : ∀ address, some address ∈ links → '"' ∉ address.toList := by
    intro address haddress
    obtain ⟨token, rfl, htoken⟩ := address_of_linked hpattern h haddress
    have htoken : '"' ∉ token.toList :=
      fun hc => Bool.noConfusion (not_mark_of_token (htoken _ hc))
    rwa [Filenames.mem_fill_iff (by decide) htoken]
  have htags : (pieces ns names links label).flatMap Piece.tags =
      links.reduceOption.flatMap fun address => ["a href=\"" ++ address ++ "\"", "/a"] :=
    flatMap_pieces (fun _ _ => rfl) h
  rw [written, Text.Markup.read_joined (sound_pieces hsound), htags, unlinked]

/-- Without a pattern for pages of types just the names that the model does not know are written. -/
theorem ofName_eq_of_no_pattern (hpattern : l.filenames.get? .classPage = none) (m : Model)
    (ns name : String) :
    (m.resolve? name ns = none ∧ ofName m l ns name = .ok (Text.escapeHtml (shortIn ns name))) ∨
      ((m.resolve? name ns).isSome ∧ ofName m l ns name = .error ⟨.classPage⟩) := by
  unfold ofName
  cases hd : m.resolve? name ns with
  | none => exact .inl ⟨rfl, rfl⟩
  | some d =>
    have hpage : l.typePage d = .error ⟨.classPage⟩ := by
      rw [Links.typePage, Links.classPage, Links.page, hpattern]
    simp only [hpage]
    exact .inr ⟨rfl, rfl⟩

/-- Without a pattern for pages of types an annotation is refused just if it names a type. -/
theorem render_eq_error_iff (hpattern : l.filenames.get? .classPage = none)
    (hsplit : split doc = (names, label)) {cause : MissingFilename} :
    render m l ns doc = .error cause ↔
      cause = ⟨.classPage⟩ ∧ ∃ name ∈ names, (m.resolve? name ns).isSome := by
  have hcases := ofName_eq_of_no_pattern hpattern m ns
  by_cases hknown : ∃ name ∈ names, (m.resolve? name ns).isSome
  · have hparts : names.mapM (ofName m l ns) = .error ⟨.classPage⟩ := by
      obtain ⟨name, hname, hd⟩ := hknown
      refine mapM_eq_error_of_mem (fun other _ => ?_) hname ?_
      · exact (hcases other).imp (fun h => ⟨_, h.2⟩) fun h => h.2
      · exact (hcases name).elim (fun h => by simp [h.1] at hd) fun h => h.2
    have herror : render m l ns doc = .error ⟨.classPage⟩ := by
      rw [render, hsplit]
      simp only [hparts]
      rfl
    rw [herror, Except.error.injEq, eq_comm]
    exact (and_iff_left hknown).symm
  · have hlinks : List.Forall₂ (Linked m l ns) names (names.map fun _ => none) := by
      rw [List.forall₂_map_right_iff, List.forall₂_same]
      intro name hname
      refine .unknown ?_
      rw [← Option.not_isSome_iff_eq_none]
      exact fun hd => hknown ⟨name, hname, hd⟩
    rw [render_eq_ok hsplit hlinks]
    exact iff_of_false nofun fun h => hknown h.2

/-- An annotation is divided into names and a label in one way. It is written with one anchor
around each name that means a type of the model, to the page of that type. What is left without the
anchors has no marks, and it is read as the short forms of the names and the label. The marks in
what is written are those of the anchors with the pattern for pages of types as their address, so
that a reader finds as many tags and ends in the same place; it finds just the anchors if the
pattern has no quotation mark. Without a pattern the annotation is refused just if it names a type
of the model. -/
theorem label_of_annotation (m : Model) (l : Links) (ns doc : String) :
    (∃ names gap label, Divides doc names gap label) ∧
    ∀ names gap label, Divides doc names gap label →
      (∀ pattern, l.filenames.get? .classPage = some pattern →
        ∃ links, List.Forall₂ (Linked m l ns) names links ∧
          render m l ns doc = .ok (written ns names links label) ∧
          Text.Harmless (unlinked ns names links label).toList ∧
          Text.unescapeHtml (unlinked ns names links label) = plainText ns names label ∧
          (∀ address, some address ∈ links → ∃ token, address = Filenames.fill pattern token ∧
            ∀ c ∈ token.toList, isWordChar c = true ∨ c = '.') ∧
          Text.marks (written ns names links label) = Text.marks (emptyAnchors pattern links) ∧
          (Text.Markup.read (written ns names links label)).outline =
            (Text.Markup.read (emptyAnchors pattern links)).outline ∧
          ('"' ∉ pattern.toList → Text.Markup.read (written ns names links label) = {
            tags := links.reduceOption.flatMap fun address =>
              ["a href=\"" ++ address ++ "\"", "/a"]
            content := (unlinked ns names links label).toList })) ∧
      (l.filenames.get? .classPage = none → ∀ cause, render m l ns doc = .error cause ↔
        cause = ⟨.classPage⟩ ∧ ∃ name ∈ names, (m.resolve? name ns).isSome) := by
  refine ⟨exists_divides doc, fun names gap label hdivides =>
    ⟨fun pattern hpattern => ?_, fun hpattern cause =>
      render_eq_error_iff hpattern hdivides.split_eq⟩⟩
  obtain ⟨links, hlinks⟩ := exists_links hpattern m ns names
  have hmarks : Text.marks (written ns names links label) =
      Text.marks (emptyAnchors pattern links) := marks_written hpattern hlinks
  refine ⟨links, hlinks, render_eq_ok hdivides.split_eq hlinks, ?_, ?_,
    fun address => address_of_linked hpattern hlinks, hmarks, Text.Markup.outline_read_eq hmarks,
    fun hquote => read_written hpattern hquote hlinks⟩
  · rw [unlinked_eq hlinks]
    exact Text.harmless_escapeHtml _
  · rw [unlinked_eq hlinks, Text.unescapeHtml_escapeHtml]

/-- A name that the model knows, one that it does not know, and a label with marks. -/
theorem label_of_annotation_marked :
    let m : Model := ⟨⟨"/p"⟩,
      [{ name := "A\\Foo", shortName := "Foo", ns := "A", kind := .classType }], by decide⟩
    let l : Links := ⟨Filenames.standard, ⟨"/p"⟩, ""⟩
    let doc := " Foo|int  the <b>\n"
    let out := "<a href=\"class-A.Foo.html\">Foo</a>|int the &lt;b&gt;"
    Divides doc ["Foo", "int"] "  " "the <b>" ∧ render m l "A" doc = .ok out ∧
      (Text.Markup.read out).tags = ["a href=\"class-A.Foo.html\"", "/a"] ∧
      Text.unescapeHtml (String.ofList (Text.Markup.read out).content) = "Foo|int the <b>" := by
  intro m l doc out
  have hdivides : Divides doc ["Foo", "int"] "  " "the <b>" := by
    constructor
    case whole => decide
    case ne_nil => decide
    case plain => simp [Text.isBlank]
    case blank => simp [Text.isBlank]
    case gap_eq => decide
    case begins =>
      intro c hc
      obtain rfl : 't' = c := by simpa using hc
      decide
  have hrender : render m l "A" doc = .ok out := toOption_eq_some_iff.1 (by decide)
  obtain ⟨-, hdivided⟩ := label_of_annotation m l "A" doc
  obtain ⟨links, -, hok, -, hplain, -, -, -, hread⟩ :=
    (hdivided _ _ _ hdivides).1 "class-%s.html" (by decide)
  have hout : written "A" ["Foo", "int"] links "the <b>" = out := eq_of_eq_ok hok hrender
  have hfound := hread (by decide)
  rw [hout] at hfound
  refine ⟨hdivides, hrender, by decide +kernel, ?_⟩
  rw [hfound, String.ofList_toList, hplain]
  decide

end Label
end DocSite
