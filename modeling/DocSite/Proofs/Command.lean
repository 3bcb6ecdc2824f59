import DocSite.Command.Run
import DocSite.Proofs.Model
import DocSite.Proofs.Site.Output
import DocSite.Proofs.Wipe.Completion

namespace DocSite

open FileTree (Loses Refusals)

namespace GenerateOptions

variable {o : GenerateOptions} {env : Config.Environment} {t : FileTree} {x : Refusals} {c : Config}
variable {m : Model} {report : String}

/-- A command may take away the entry here before it writes anything. -/
def MayClear (o : GenerateOptions) (c : Config) (t : FileTree) (loc : Location) : Prop :=
  o.keep = false ∧ Wipe.MayTake o.output c t loc

theorem run_of_config_error {cause : ConfigError} (hc : o.loadConfig env t = .error cause) :
    o.run env t x = .fail t "" (.config cause) := by
  simp only [run, hc]

theorem run_of_model_error {cause : ModelError} (hc : o.loadConfig env t = .ok c)
    (hm : Model.load t o.model = .error cause) : o.run env t x = .fail t "" (.model cause) := by
  simp only [run, hc, hm]

theorem run_of_load (hc : o.loadConfig env t = .ok c) (hm : Model.load t o.model = .ok m) :
    o.run env t x = o.build c m t x := by
  simp only [run, hc, hm]

theorem prepare_loses (hs : t.Sorted) : Loses t (o.MayClear c t) (o.prepare c t x).1 := by
  unfold prepare
  split
  · exact .refl hs.toWellFormed
  · rename_i hkeep
    exact (Wipe.wipe_loses hs.toWellFormed x o.output c).mono fun loc htake =>
      ⟨by simpa using hkeep, htake⟩

theorem prepare_sorted (hs : t.Sorted) : (o.prepare c t x).1.Sorted := by
  unfold prepare
  split
  · exact hs
  · exact wipe_sorted hs

theorem build_of_not_wiped (h : (o.prepare c t x).2 = false) :
    o.build c m t x = .fail (o.prepare c t x).1 (o.modelLine m) (.notWiped o.output) := by
  have hkeep : o.keep = false := by
    cases hkeep : o.keep with
    | false => rfl
    | true => simp [prepare, hkeep] at h
  unfold build
  generalize o.prepare c t x = a at h ⊢
  obtain ⟨w, ok⟩ := a
  obtain rfl : ok = false := h
  simp [hkeep]

theorem generate_writes (hs : t.Sorted) :
    Site.Writes ⟨m, c, .ofConfig c m.root⟩ o.output t (o.generate c m t report).tree := by
  have hwrites : ∀ r : Run Template.Memory, r.tree = t → ∀ e,
      Site.Writes ⟨m, c, .ofConfig c m.root⟩ o.output t
        (Site.generate ⟨m, c, .ofConfig c m.root⟩ e .plain o.output r).1.tree := by
    rintro r rfl e
    exact Site.writes_generate hs
  unfold generate
  dsimp only
  split <;> exact hwrites _ rfl _

/-- Once the output is wiped, a command writes just what a run may, whatever it fails for. -/
theorem build_writes (hs : t.Sorted) (hprepare : (o.prepare c t x).2 = true) :
    Site.Writes ⟨m, c, .ofConfig c m.root⟩ o.output (o.prepare c t x).1
      (o.build c m t x).tree := by
  have hprepared := prepare_sorted (o := o) (c := c) (x := x) hs
  unfold build
  generalize o.prepare c t x = a at hprepare hprepared ⊢
  obtain ⟨w, ok⟩ := a
  obtain rfl : ok = true := hprepare
  have hcreated : Site.Writes ⟨m, c, .ofConfig c m.root⟩ o.output w (w.createDirAll o.output).1 :=
    FileTree.createDirAll_grows hprepared
  dsimp only
  split
  · rename_i hcreate
    rwa [hcreate] at hcreated
  · rename_i u hcreate
    rw [hcreate] at hcreated
    exact hcreated.trans (generate_writes hcreated.sorted)

/-- What a command that generates a site changes at most, stage by stage. If its configuration is
not accepted, or the file of the model is unfit, it changes nothing. Otherwise it first takes away
some of what a wipe may take, and nothing else; if the wipe fails, that is all. If it does not, then
whatever the command fails for, nothing else is removed, and every file that is not as it was at
first is one that a run may write. -/
theorem changes_of_run (hs : t.Sorted) (o : GenerateOptions) (env : Config.Environment)
    (x : Refusals) :
    let out := o.run env t x
    (∀ cause, o.loadConfig env t = .error cause → out = .fail t "" (.config cause)) ∧
    ∀ c, o.loadConfig env t = .ok c →
      (∀ cause, Model.Unfit t o.model cause → out = .fail t "" (.model cause)) ∧
      ∀ m, Model.load t o.model = .ok m →
        let (w, ok) := o.prepare c t x
        Loses t (o.MayClear c t) w ∧
        (ok = false → out = .fail w (o.modelLine m) (.notWiped o.output)) ∧
        (ok = true →
          Site.Writes ⟨m, c, .ofConfig c m.root⟩ o.output w out.tree ∧
          (∀ loc bytes, t.entryAt loc = some (.file bytes) →
            (∃ bytes, out.tree.entryAt loc = some (.file bytes)) ∨
              w.entryAt loc = none ∧ o.MayClear c t loc) ∧
          ∀ loc bytes, out.tree.entryAt loc = some (.file bytes) →
            t.entryAt loc = some (.file bytes) ∨
              Site.MayWrite ⟨m, c, .ofConfig c m.root⟩ o.output out.tree loc) := by
  intro out
  refine ⟨fun cause hc => run_of_config_error hc, fun c hc => ⟨fun cause hunfit =>
    run_of_model_error hc (Model.load_eq_error_iff.2 hunfit), fun m hm => ?_⟩⟩
  have hrun : out = o.build c m t x := run_of_load hc hm
  have hloses : Loses t (o.MayClear c t) (o.prepare c t x).1 := prepare_loses hs
  refine ⟨hloses, fun hfail => hrun.trans (build_of_not_wiped hfail), fun hok => ?_⟩
  have hwrites : Site.Writes ⟨m, c, .ofConfig c m.root⟩ o.output (o.prepare c t x).1 out.tree :=
    hrun ▸ build_writes hs hok
  refine ⟨hwrites, fun loc bytes he => ?_, fun loc bytes he => ?_⟩
  · rcases hloses.entry loc with hleft | hgone
    · exact .inl (hwrites.isFileAt (hleft.trans he))
    · exact .inr hgone
  · exact (hwrites.file loc bytes he).imp_left hloses.entryAt_eq

/-- A directory whose configuration copies a resource into the output itself, with two models: one
of no types, and one that has a type twice. -/
def crowded : FileTree := ⟨[
  (["apidoc.toml"], .file "[resources]\nres = \".\"\n".toUTF8),
  (["model.json"], .file "\x7b\"types\": []\x7d".toUTF8),
  (["out"], .dir), (["out", "a.css"], .file .empty), (["res"], .dir),
  (["twice.json"], .file
    "\x7b\"types\": [\x7b\"name\": \"A\"\x7d, \x7b\"name\": \"A\"\x7d]\x7d".toUTF8)], []⟩

theorem crowded_sorted : crowded.Sorted :=
  ⟨⟨by decide +kernel, by decide +kernel, by decide +kernel⟩, by decide +kernel⟩

def crowdedOptions : GenerateOptions := ⟨⟨"model.json"⟩, ⟨"out"⟩, none, false, false⟩

theorem prepare_crowded : (crowdedOptions.loadConfig [] crowded).toOption.any (fun c =>
    !(crowdedOptions.prepare c crowded).2 &&
      ((crowdedOptions.prepare c crowded).1.entryAt ["out", "a.css"]).isNone) = true := by
  decide +kernel

theorem load_crowded : (Model.load crowded crowdedOptions.model).toOption.any (fun m =>
    crowdedOptions.modelLine m == "No types in model.json\n") = true := by
  decide +kernel

theorem load_twice : Model.load crowded ⟨"twice.json"⟩ = .error (.duplicate "A") :=
  eq_error_of_beq (by decide +kernel)

/-- A wipe that fails has removed something, a model that is unfit costs nothing, and what is kept
stays. -/
theorem changes_of_run_crowded :
    (∃ w, crowdedOptions.run [] crowded = .fail w "No types in model.json\n" (.notWiped ⟨"out"⟩) ∧
      crowded.entryAt ["out", "a.css"] = some (.file .empty) ∧
      w.entryAt ["out", "a.css"] = none ∧
      ∀ loc e, w.entryAt loc = some e → crowded.entryAt loc = some e) ∧
    { crowdedOptions with model := ⟨"twice.json"⟩ }.run [] crowded =
      .fail crowded "" (.model (.duplicate "A")) ∧
    ∃ bytes, ({ crowdedOptions with keep := true }.run [] crowded).tree.entryAt
      ["out", "a.css"] = some (.file bytes) := by
  obtain ⟨c, hc, hchecked⟩ := (Option.any_eq_true _ _).1 prepare_crowded
  obtain ⟨m, hm, hline⟩ := (Option.any_eq_true _ _).1 load_crowded
  have hc := toOption_eq_some_iff.1 hc
  have hm := toOption_eq_some_iff.1 hm
  simp only [Bool.and_eq_true, Bool.not_eq_true', Option.isNone_iff_eq_none] at hchecked
  obtain ⟨hfails, hgone⟩ := hchecked
  have hfile : crowded.entryAt ["out", "a.css"] = some (.file .empty) := rfl
  refine ⟨?_, ?_, ?_⟩
  · obtain ⟨-, hstages⟩ := changes_of_run crowded_sorted crowdedOptions [] {}
    obtain ⟨-, hwipe⟩ := hstages c hc
    obtain ⟨hloses, hfail, -⟩ := hwipe m hm
    have hline : crowdedOptions.modelLine m = "No types in model.json\n" := by simpa using hline
    exact ⟨_, hline ▸ hfail hfails, hfile, hgone, fun loc e => hloses.entryAt_eq⟩
  · obtain ⟨-, hstages⟩ :=
      changes_of_run crowded_sorted { crowdedOptions with model := ⟨"twice.json"⟩ } [] {}
    obtain ⟨hmodel, -⟩ := hstages c hc
    exact hmodel _ (Model.load_eq_error_iff.1 load_twice)
  · obtain ⟨-, hstages⟩ :=
      changes_of_run crowded_sorted { crowdedOptions with keep := true } [] {}
    obtain ⟨-, hwipe⟩ := hstages c hc
    obtain ⟨-, -, hkept⟩ := hwipe m hm
    obtain ⟨hwrites, -⟩ := hkept rfl
    exact hwrites.isFileAt hfile

end GenerateOptions
end DocSite
