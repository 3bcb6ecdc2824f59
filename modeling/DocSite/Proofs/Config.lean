import DocSite.Config.Load
import DocSite.Proofs.Except
import DocSite.Proofs.Path
import DocSite.Proofs.PathPart
import DocSite.Proofs.Text.Cut

namespace DocSite

namespace Path

variable {p : Path}

theorem mem_segments_iff {seg : String} :
    seg ∈ p.segments ↔ seg.toList ∈ Text.splitAll '/' p.text.toList := by
  constructor
  · intro h
    obtain ⟨part, hpart, rfl⟩ := List.mem_map.1 h
    rwa [String.toList_ofList]
  · intro h
    exact List.mem_map.2 ⟨_, h, String.ofList_toList⟩

theorem up_mem_components_iff (hp : p.isAbsolute = false) :
    PathPart.up ∈ p.components ↔ ".." ∈ p.segments := by
  have hhead : p.text.toList.head? ≠ some '/' := by simpa [isAbsolute] using hp
  have hstart : alphabet.start p.text.toList ≠ some .up := by
    unfold PathAlphabet.start
    split
    · simp
    · split <;> simp
  rw [mem_segments_iff, components, PathAlphabet.parts, List.mem_append, Option.mem_toList,
    or_iff_right hstart, PathAlphabet.inner, List.mem_filterMap]
  simp only [PathAlphabet.part?_eq_up_iff, exists_eq_right]
  rfl

end Path

namespace Config

variable {t : FileTree} {env : Environment} {c : Config} {cause : ConfigError} {text : String}
variable {base path : Path}

theorem ofToml_eq_ok_iff : ofToml env text base = .ok c ↔
    ∃ d d', document? text = some d ∧ d.expand env = .ok d' ∧
      (d'.resolve base).validate = .ok () ∧ c = d'.resolve base := by
  unfold ofToml
  cases document? text with
  | none => simp
  | some d =>
    simp only [bind_eq_ok, Except.ok.injEq, Option.some.injEq]
    constructor
    · rintro ⟨d', hd', u, hvalid, rfl⟩
      exact ⟨d, d', rfl, hd', hvalid, rfl⟩
    · rintro ⟨_, d', rfl, hd', hvalid, rfl⟩
      exact ⟨d', hd', (), hvalid, rfl⟩

theorem ofToml_eq_error_iff : ofToml env text base = .error cause ↔
    (document? text = none ∧ cause = .malformed) ∨
      ∃ d, document? text = some d ∧ (d.expand env = .error cause ∨
        ∃ d', d.expand env = .ok d' ∧ (d'.resolve base).validate = .error cause) := by
  unfold ofToml
  cases document? text with
  | none => simp [eq_comm]
  | some d =>
    simp only [bind_eq_error, reduceCtorEq, false_and, false_or, Option.some.injEq,
      exists_eq_left', and_false, exists_false, or_false]

theorem ofFile_eq_ok_iff : ofFile t env path = .ok c ↔
    ∃ text d d', t.readText path = .ok text ∧ document? text = some d ∧ d.expand env = .ok d' ∧
      (d'.resolve (path.parent.getD ⟨"."⟩)).validate = .ok () ∧
      c = { d'.resolve (path.parent.getD ⟨"."⟩) with file := some path } := by
  unfold ofFile
  cases t.readText path with
  | error cause => simp
  | ok text =>
    simp only [bind_eq_ok, ofToml_eq_ok_iff, Except.ok.injEq]
    constructor
    · rintro ⟨c, ⟨d, d', hd, hd', hvalid, rfl⟩, rfl⟩
      exact ⟨text, d, d', rfl, hd, hd', hvalid, rfl⟩
    · rintro ⟨_, d, d', rfl, hd, hd', hvalid, rfl⟩
      exact ⟨_, ⟨d, d', hd, hd', hvalid, rfl⟩, rfl⟩

theorem ofFile_eq_error_iff : ofFile t env path = .error cause ↔
    (∃ e, t.readText path = .error e ∧ cause = .unreadable e) ∨
      ∃ text, t.readText path = .ok text ∧
        ofToml env text (path.parent.getD ⟨"."⟩) = .error cause := by
  unfold ofFile
  cases t.readText path with
  | error e => simp [eq_comm]
  | ok text => simp [bind_eq_error]

theorem leavesOutput_eq_false_iff {destination : String} : leavesOutput destination = false ↔
    destination ≠ "" ∧ Path.isAbsolute ⟨destination⟩ = false ∧
      ".." ∉ Path.segments ⟨destination⟩ := by
  simp only [leavesOutput, Bool.or_eq_false_iff, beq_eq_false_iff_ne, and_assoc]
  refine and_congr_right fun _ => and_congr_right fun habs => ?_
  rw [← Path.up_mem_components_iff habs]
  simp

/-- What the checks of a configuration establish. -/
structure Valid (c : Config) : Prop where
  placeholder : ∀ kind pattern, (kind, pattern) ∈ c.filenames.patterns →
    Text.countWord placeholder pattern.toList = 1
  destination : ∀ r ∈ c.resources, leavesOutput r.destination = false

theorem valid_of_validate (h : c.validate = .ok ()) : c.Valid := by
  obtain ⟨u, hnames, hresources⟩ := bind_eq_ok.1 h
  constructor
  · intro kind pattern hp
    have hcheck := forM_eq_ok hnames hp
    dsimp only at hcheck
    split at hcheck
    · assumption
    · simp at hcheck
  · intro r hr
    have hcheck := forM_eq_ok hresources hr
    split at hcheck
    · simp at hcheck
    · rename_i hleaves
      simpa using hleaves

theorem valid_of_ofToml (h : ofToml env text base = .ok c) : c.Valid := by
  obtain ⟨d, d', -, -, hvalid, rfl⟩ := ofToml_eq_ok_iff.1 h
  exact valid_of_validate hvalid

theorem valid_of_load {path : Option Path} {bar : Option Bool}
    (h : load t env path bar = .ok c) : c.Valid := by
  have hfile : ∀ {path c}, ofFile t env path = .ok c → c.Valid := by
    intro path c hc
    unfold ofFile at hc
    split at hc
    · simp at hc
    · obtain ⟨c₁, h₁, hc⟩ := bind_eq_ok.1 hc
      obtain ⟨hpatterns, hdestinations⟩ := valid_of_ofToml h₁
      rw [← Except.ok.inj hc]
      exact ⟨hpatterns, hdestinations⟩
  -- the choice for the progress bar is not checked
  have hbar : ∀ {loaded : Except ConfigError Config}, (∀ c, loaded = .ok c → c.Valid) →
      (loaded >>= fun c => .ok { c with progressBar := bar.getD c.progressBar }) = .ok c →
      c.Valid := by
    intro loaded hloaded hc
    obtain ⟨c₁, h₁, hc⟩ := bind_eq_ok.1 hc
    obtain ⟨hpatterns, hdestinations⟩ := hloaded c₁ h₁
    rw [← Except.ok.inj hc]
    exact ⟨hpatterns, hdestinations⟩
  unfold load at h
  dsimp only at h
  split at h <;> split at h
  · exact hbar (fun c => hfile) h
  · exact hbar (by simp) h
  · exact hbar (fun c => hfile) h
  · refine hbar (fun c hc => ?_) h
    rw [← Except.ok.inj hc]
    exact valid_of_validate rfl

theorem exists_splitAt?_of_valid (h : c.Valid) {kind : PageKind} {pattern : String}
    (hp : (kind, pattern) ∈ c.filenames.patterns) :
    ∃ before after, Text.splitAt? DocSite.placeholder pattern.toList = some (before, after) := by
  have hcount := h.placeholder kind pattern hp
  unfold Text.countWord at hcount
  cases hn : pattern.toList.length with
  | zero => simp [hn, Text.countWord.go] at hcount
  | succ n =>
    rw [hn, Text.countWord.go] at hcount
    cases hcut : Text.splitAt? DocSite.placeholder pattern.toList with
    | none => simp [hcut] at hcount
    | some cut => exact ⟨cut.1, cut.2, rfl⟩

end Config
end DocSite
