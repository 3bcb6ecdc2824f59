import DocSite.Proofs.FileTree.Replay
import DocSite.Proofs.Site.Run

namespace DocSite

open FileTree (Grows Found Within)

variable {σ : Type} {T : FileTree} {top : Location} {p p' q : Run σ} {output : Path} {s : Site}
variable {e : Engine σ} {h : Highlighter}

/-- An engine whose texts depend on nothing but the template, the context and the files outside a
location. -/
def Engine.Steady (e : Engine σ) (top : Location) : Prop :=
  ∀ t t' template context engine engine', t'.current = t.current →
    (∀ loc, ¬top <+: loc → t'.entryAt loc = t.entryAt loc) →
    (e.render t' template context engine').1 = (e.render t template context engine).1

namespace Run

/-- The second run is the first one on a tree that replays that of the first. The state of its
engine may be another. -/
inductive Replays (T : FileTree) (top : Location) (p : Run σ) : Run σ → Prop
  | mk {v : FileTree} (engine : σ) (htree : FileTree.Replay T top p.tree v) :
      Replays T top p { p with tree := v, engine }

theorem Replays.sorted (hpq : Replays T top p q) : p.tree.Sorted := by
  cases hpq with
  | mk _ htree => exact htree.left

theorem Replays.within (hpq : Replays T top p q) : Within p.tree T := by
  cases hpq with
  | mk _ htree => exact htree.within.trans htree.final

section Advance

variable {α : Type} {step : Run σ → α → Advance σ} {items : List α}

theorem advance_grows (hs : p.tree.Sorted)
    (hgrows : ∀ a ∈ items, ∀ p p', p.tree.Sorted → step p a = (p', none) →
      Grows p.tree (fun _ => True) p'.tree)
    (hp : advance step p items = (p', none)) : Grows p.tree (fun _ => True) p'.tree :=
  advance_induction (I := fun _ r => Grows p.tree (fun _ => True) r.tree) (.refl hs)
    (fun _ a r _ ha hr hok => hr.trans (hgrows a ha r _ hr.sorted hok)) hp

/-- If each step can be repeated, so can all of them. -/
theorem advance_replays
    (hgrows : ∀ a ∈ items, ∀ p p', p.tree.Sorted → step p a = (p', none) →
      Grows p.tree (fun _ => True) p'.tree)
    (hstep : ∀ a ∈ items, ∀ p p' q, Replays T top p q → step p a = (p', none) →
      Within p'.tree T → ∃ q', step q a = (q', none) ∧ Replays T top p' q')
    (hpq : Replays T top p q) (hp : advance step p items = (p', none)) (hT : Within p'.tree T) :
    ∃ q', advance step q items = (q', none) ∧ Replays T top p' q' := by
  induction items generalizing p q with
  | nil =>
    obtain ⟨rfl, -⟩ := Prod.mk.inj hp
    exact ⟨q, rfl, hpq⟩
  | cons a items ih =>
    rw [advance_cons] at hp
    split at hp
    · rename_i p₁ hfirst
      have hs₁ := (hgrows a (.head _) p p₁ hpq.sorted hfirst).sorted
      have hrest := advance_grows hs₁ (fun b hb => hgrows b (.tail _ hb)) hp
      obtain ⟨q₁, hq₁, hpq₁⟩ := hstep a (.head _) p p₁ q hpq hfirst (hrest.within.trans hT)
      obtain ⟨q', hq', hpq'⟩ := ih (fun b hb => hgrows b (.tail _ hb))
        (fun b hb => hstep b (.tail _ hb)) hpq₁ hp
      exact ⟨q', by rw [advance_cons, hq₁]; exact hq', hpq'⟩
    · simp at hp

end Advance

namespace Replays

theorem ensureParent {path : Path} (hpq : Replays T top p q)
    (hp : p.ensureParent path = (p', none)) (hT : Within p'.tree T) :
    ∃ q', q.ensureParent path = (q', none) ∧ Replays T top p' q' := by
  cases hpq with
  | mk engine htree =>
    unfold Run.ensureParent at hp ⊢
    split at hp
    · obtain ⟨rfl, -⟩ := Prod.mk.inj hp
      exact ⟨_, rfl, .mk engine htree⟩
    · rename_i parent _
      obtain ⟨rfl, hcause⟩ := Prod.mk.inj hp
      have hu : p.tree.createDirAll parent = ((p.tree.createDirAll parent).1, none) :=
        Prod.ext rfl (Option.map_eq_none_iff.1 hcause)
      obtain ⟨v', hv', htree'⟩ := htree.createDirs hu hT
      refine ⟨{ p with tree := v', engine }, ?_, .mk (p := { p with tree := _ }) engine htree'⟩
      dsimp only
      rw [FileTree.createDirAll, hv']
      rfl

theorem copyEntry {target : Path} {f : Found} (hpq : Replays T top p q)
    (hp : Run.copyEntry target p f = (p', none)) (hT : Within p'.tree T)
    (hout : f.isFile = true → ∀ loc, T.follow true f.path = .ok loc → ¬top <+: loc) :
    ∃ q', Run.copyEntry target q f = (q', none) ∧ Replays T top p' q' := by
  unfold Run.copyEntry at hp ⊢
  split at hp
  · rename_i hfile
    obtain ⟨rfl, -⟩ := Prod.mk.inj hp
    exact ⟨q, if_pos hfile, hpq⟩
  rename_i hfile
  rw [if_neg hfile]
  dsimp only at hp ⊢
  split at hp
  · simp at hp
  rename_i p₁ hparent
  split at hp
  · simp at hp
  rename_i t' hcopy
  obtain ⟨rfl, -⟩ := Prod.mk.inj hp
  have hs₁ := (ensureParent_grows hpq.sorted hparent).1.sorted
  have hT₁ : Within p₁.tree T := by
    obtain ⟨loc, bytes, hloc, hdir, rfl⟩ := FileTree.copyFile_eq_ok hcopy
    exact (FileTree.putFile_grows hs₁ hloc hdir).within.trans hT
  obtain ⟨q₁, hq₁, hpq₁⟩ := hpq.ensureParent hparent hT₁
  rw [hq₁]
  cases hpq₁ with
  | mk engine htree =>
    obtain ⟨v', hv', htree'⟩ := htree.copyFile hcopy hT (hout (by simpa using hfile))
    dsimp only
    rw [hv']
    exact ⟨_, rfl, .mk (p := { p₁ with tree := _, stats := _ }) engine htree'⟩

/-- A resource that lies apart from the output is the same in both trees, and is copied again. -/
theorem copyResource {resource : Resource} (hpq : Replays T top p q)
    (hp : Run.copyResource output p resource = (p', none)) (hT : Within p'.tree T)
    (hout : ∀ loc, T.follow true resource.source = .ok loc → ¬top <+: loc ∧ ¬loc <+: top) :
    ∃ q', Run.copyResource output q resource = (q', none) ∧ Replays T top p' q' := by
  unfold Run.copyResource at hp ⊢
  split at hp
  · simp at hp
  rename_i found hwalk
  have hgrows : ∀ f ∈ found, ∀ r r' : Run σ, r.tree.Sorted →
      Run.copyEntry (output.join ⟨resource.destination⟩) r f = (r', none) →
      Grows r.tree (fun _ => True) r'.tree := fun _ _ _ _ hs hok =>
    (copyEntry_grows hs hok).1.mono fun _ _ => trivial
  have hagain : q.tree.walk resource.source = .ok found := by
    cases hpq with
    | mk _ htree => exact htree.walk hwalk hout
  rw [hagain]
  refine advance_replays hgrows (fun f hf r r' r'' hr hok hT => ?_) hpq hp hT
  obtain ⟨root, _, hroot, he⟩ := FileTree.exists_root_of_walk hwalk
  obtain ⟨hbelow, habove⟩ := hout root (FileTree.follow_within_of_entryAt hpq.within hroot he)
  have hfound := (FileTree.mem_walk_iff hpq.sorted.toWellFormed hwalk hroot).1 hf
  refine hr.copyEntry hok hT fun hfile loc hloc htop => ?_
  -- what the walk has found lies below the resource, so it does not lie below the output
  have hmine := hfound.follow_path hpq.sorted.toWellFormed true fun _ target hlink => by
    simp [FileTree.Found.isFile, hlink] at hfile
  obtain rfl := eq_of_eq_ok hloc
    (FileTree.follow_within_of_entryAt hpq.within hmine hfound.entry_eq)
  rcases List.prefix_or_prefix_of_prefix htop (List.prefix_append root f.names) with h | h
  · exact hbelow h
  · exact habove h

theorem fullContext {page : Page} {context : PageContext} (hpq : Replays T top p q)
    (hp : p.fullContext h page = .ok context)
    (hout : ∀ file, page.sourceFile = some file → ∀ loc, T.follow true file = .ok loc →
      ¬top <+: loc) : q.fullContext h page = .ok context := by
  unfold Run.fullContext at hp ⊢
  split at hp
  · exact hp
  rename_i file hfile
  split at hp
  · simp at hp
  rename_i bytes hread
  cases hpq with
  | mk _ htree =>
    dsimp only
    rw [htree.read hread (hout file hfile)]
    exact hp

theorem writePage {link text : String} (hpq : Replays T top p q)
    (hp : p.writePage output link text = (p', none)) (hT : Within p'.tree T) :
    ∃ q', q.writePage output link text = (q', none) ∧ Replays T top p' q' := by
  unfold Run.writePage at hp ⊢
  dsimp only at hp ⊢
  split at hp
  · simp at hp
  rename_i p₁ hparent
  split at hp
  · simp at hp
  rename_i t' hwrite
  obtain ⟨rfl, -⟩ := Prod.mk.inj hp
  have hs₁ := (ensureParent_grows hpq.sorted hparent).1.sorted
  have hT₁ : Within p₁.tree T := by
    obtain ⟨loc, hloc, hdir, rfl⟩ := FileTree.write_eq_ok hwrite
    exact (FileTree.putFile_grows hs₁ hloc hdir).within.trans hT
  obtain ⟨q₁, hq₁, hpq₁⟩ := hpq.ensureParent hparent hT₁
  rw [hq₁]
  cases hpq₁ with
  | mk engine htree =>
    obtain ⟨v', hv', htree'⟩ := htree.write hwrite hT
    dsimp only
    rw [hv']
    exact ⟨_, rfl, .mk (p := { p₁ with tree := _ }) engine htree'⟩

theorem renderPage {planned : PlannedPage} (he : e.Steady top) (hpq : Replays T top p q)
    (hp : Run.renderPage e h output p planned = (p', none)) (hT : Within p'.tree T)
    (hout : ∀ page file, planned = .ok page → page.sourceFile = some file →
      ∀ loc, T.follow true file = .ok loc → ¬top <+: loc) :
    ∃ q', Run.renderPage e h output q planned = (q', none) ∧ Replays T top p' q' := by
  unfold Run.renderPage at hp ⊢
  split at hp
  · simp at hp
  rename_i page
  split at hp
  · simp at hp
  rename_i context hcontext
  rw [hpq.fullContext hcontext fun file => hout page file rfl]
  split at hp
  · simp at hp
  rename_i text engine hrender
  split at hp
  · simp at hp
  rename_i p₁ hwrite
  obtain ⟨rfl, -⟩ := Prod.mk.inj hp
  cases hpq with
  | mk engine' htree =>
    rename_i v
    -- the engine sees the same template, context and files outside
    have hsame := he p.tree v page.template context p.engine engine' htree.within.current
      htree.outside
    rw [hrender] at hsame
    dsimp only
    split
    · rename_i heq
      rw [heq] at hsame
      simp at hsame
    rename_i text' engine'' heq
    rw [heq] at hsame
    obtain rfl := Except.ok.inj hsame
    have hpq' : Replays T top { p with engine } { p with tree := v, engine := engine'' } :=
      .mk (p := { p with engine }) engine'' htree
    obtain ⟨q₁, hq₁, hpq₁⟩ := hpq'.writePage hwrite hT
    rw [hq₁]
    cases hpq₁ with
    | mk engine htree => exact ⟨_, rfl, .mk (p := p₁.note page context) engine htree⟩

end Replays

/-- A run that succeeded succeeds again, and does the same. -/
theorem Replays.generate (he : e.Steady top) (hpq : Replays T top p q)
    (hp : s.generate e h output p = (p', none)) (hT : Within p'.tree T)
    (hresources : ∀ resource ∈ s.config.resources, ∀ loc, T.follow true resource.source = .ok loc →
      ¬top <+: loc ∧ ¬loc <+: top)
    (hsources : ∀ page file, .ok page ∈ s.pages → page.sourceFile = some file →
      ∀ loc, T.follow true file = .ok loc → ¬top <+: loc) :
    ∃ q', s.generate e h output q = (q', none) ∧ Replays T top p' q' := by
  obtain ⟨hisDir, p₁, p₂, hcopy, hrender, rfl⟩ := Site.generate_eq_ok_iff.1 hp
  have hcopied : ∀ resource ∈ s.config.resources, ∀ r r' : Run σ, r.tree.Sorted →
      Run.copyResource output r resource = (r', none) →
      Grows r.tree (fun _ => True) r'.tree := by
    intro resource _ r r' hs hok
    unfold Run.copyResource at hok
    split at hok
    · simp at hok
    · exact advance_grows hs (fun _ _ _ _ hs hok =>
        (copyEntry_grows hs hok).1.mono fun _ _ => trivial) hok
  have hrendered : ∀ planned ∈ s.pages, ∀ r r' : Run σ, r.tree.Sorted →
      Run.renderPage e h output r planned = (r', none) →
      Grows r.tree (fun _ => True) r'.tree := by
    intro planned _ r r' hs hok
    obtain ⟨_, _, _, _, hgrows, -⟩ := renderPage_grows hs hok
    exact hgrows.mono fun _ _ => trivial
  have hs₁ := (advance_grows (p := p.start s.pageCount) hpq.sorted hcopied hcopy).sorted
  have hT₁ : Within p₁.tree T := (advance_grows hs₁ hrendered hrender).within.trans hT
  have hagain : q.tree.isDir output = true := by
    cases hpq with
    | mk _ htree => exact htree.isDir hisDir
  have hstart : Replays T top (p.start s.pageCount) (q.start s.pageCount) := by
    cases hpq with
    | mk engine htree => exact .mk (p := p.start s.pageCount) engine htree
  obtain ⟨q₁, hq₁, hpq₁⟩ := advance_replays hcopied
    (fun resource hmem _ _ _ hr hok hT => hr.copyResource hok hT (hresources resource hmem))
    hstart hcopy hT₁
  obtain ⟨q₂, hq₂, hpq₂⟩ := advance_replays hrendered
    (fun planned hmem _ _ _ hr hok hT => hr.renderPage he hok hT fun page file hpage =>
      hsources page file (hpage ▸ hmem)) hpq₁ hrender hT
  refine ⟨q₂.finish, Site.generate_eq_ok_iff.2 ⟨hagain, q₁, q₂, hq₁, hq₂, rfl⟩, ?_⟩
  cases hpq₂ with
  | mk engine htree => exact .mk (p := p₂.finish) engine htree

/-- A run repeated on a tree that replays its start ends with the tree that it ended with. -/
theorem Replays.eq_final (hpq : Replays p.tree top p q) : q = { p with engine := q.engine } := by
  cases hpq with
  | mk engine htree =>
    obtain rfl := htree.eq_final
    rfl

end Run
end DocSite
