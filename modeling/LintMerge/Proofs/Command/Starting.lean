/-
# A configuration to start from

The command that writes a configuration never overwrites one unless it is asked to, and what it
writes is what the linters are run with. The parts meet here. The configuration says of each linter
whether it is one of those chosen for what was detected (`Command.enabledIn_eq`); its text is read
back as this (`Config.readFile_template`, `Config.check_template`) from where it was written
(`Tree.wrote_of_write`), which is the first place at which a configuration is looked for
(`Config.load_of_wrote`). A run of the linters then selects the ones chosen, or the default ones in
the place of none (`Command.Selects`).

This needs that the entry of the configuration is no link: what is written to a link changes another
file.
-/

import LintMerge.Proofs.Command.Declared
import LintMerge.Proofs.Command.Statuses
import LintMerge.Proofs.Config.Shadowing
import LintMerge.Proofs.Config.Template
import LintMerge.Proofs.Tree.Writing

namespace LintMerge

namespace Detection

variable {h : Host} {root : Path} {r : Runner}

theorem ensures_linter (h : Host) (root : Path) (packages : List String) (l : Linter) :
    (detect h root packages l).Ensures r fun x => ∀ d, x = .ok d → d.linter = l := by
  rw [detect]
  split
  · rintro _ ⟨⟩
  · rintro _ ⟨⟩
    rfl
  · refine (Job.ensures_true _).bind fun answer _ => ?_
    rintro d hd
    cases answer with
    | error f => cases hd
    | ok o =>
      cases hd
      rfl

/-- A row of outcomes that has values is one of values. -/
theorem forall₂_of_mapM_id {ε α β : Type} {P : β → Except ε α → Prop} {bs : List β}
    {xs : List (Except ε α)} {as : List α} (hxs : List.Forall₂ P bs xs) (h : xs.mapM id = .ok as) :
    List.Forall₂ (fun b a => P b (.ok a)) bs as := by
  have hall := Faulty.mapM_eq_ok.1 h
  clear h
  induction hxs generalizing as with
  | nil =>
    cases hall
    exact .nil
  | cons hx _ ih =>
    cases hall with
    | cons ha hall =>
      cases ha
      exact .cons hx (ih hall)

/-- What is found out about all linters tells of each of them once. -/
theorem ensures_linters (h : Host) (root : Path) :
    (detectAll h root).Ensures r fun x => ∀ ds, x = .ok ds → ds.map Detection.linter = Linter.all := by
  rw [detectAll]
  split
  · rintro _ ⟨⟩
  · refine (Job.ensures_inTurn fun l _ => ensures_linter h root _ l).bind fun found hfound => ?_
    intro ds hds
    have hlinters : List.Forall₂ (fun l d => d.linter = l) Linter.all ds :=
      (forall₂_of_mapM_id hfound hds).imp fun _ d hd => hd d rfl
    rw [← List.forall₂_eq_eq_eq, List.forall₂_map_left_iff]
    exact hlinters.flip

end Detection

namespace Config

variable {t t' : Tree} {root : Path} {enabled : List (Linter × Bool)}

theorem ownPlace_eq (root : Path) : ownPlace root = root.child "lintmesh.toml" := by
  have hname : Path.ofText "lintmesh.toml" = ⟨0, ["lintmesh.toml"]⟩ := by decide +kernel
  rw [ownPlace, hname]
  rfl

/-- **A configuration that was written to the first place** is the one that is loaded. -/
theorem load_of_wrote (hnodup : (enabled.map (·.1)).Nodup)
    (hw : t.Wrote t' (root.child "lintmesh.toml") (Text.Utf8.encode (template enabled).toList)) :
    load t' root = .ok ⟨some (root.child "lintmesh.toml"), templateConfig enabled⟩ := by
  have hfirst : firstFile t' (places root) = .ok (some (root.child "lintmesh.toml")) := by
    rw [places_eq, ownPlace_eq, firstFile, Tree.firstFile_cons_of_isFile hw.isFile]
    rfl
  have hname : (root.child "lintmesh.toml").name ≠ manifest := by
    rw [name_child]
    decide
  rw [load, loadBy_eq, hfirst]
  show loadFile _ _ = _
  rw [loadFile, if_neg hname]
  refine Faulty.bind_eq_ok.2 ⟨_, readFile_template hnodup hw.contents, ?_⟩
  refine Faulty.bind_eq_ok.2 ⟨_, Faulty.mapError_eq_ok.2 ?_, rfl⟩
  exact ofEntries_eq_ok_iff.2 (check_template enabled)

end Config

namespace Command

variable {h : Host} {workDir root : Path} {force : Bool} {cwd : Option String} {r : Runner}
  {t : Tree} {ds : List Detection}

/-! ## The linters that are chosen -/

/-- The linters that are recommended. -/
def recommendedIn (ds : List Detection) : List Linter :=
  (ds.filter Detection.recommended).map Detection.linter

/-- The default linters that can run. -/
def presentIn (ds : List Detection) : List Linter :=
  (ds.filter fun d => d.available && Linter.defaults.contains d.linter).map Detection.linter

/-- What was detected selects some linters: those that are recommended, or the default ones that can
run where none is recommended, or all default ones where there are none of these either. -/
inductive Selects (ds : List Detection) : List Linter → Prop where
  | recommended (hsome : recommendedIn ds ≠ []) : Selects ds (recommendedIn ds)
  | present (hnone : recommendedIn ds = []) (hsome : presentIn ds ≠ []) : Selects ds (presentIn ds)
  | defaults (hnone : recommendedIn ds = []) (hnone' : presentIn ds = []) : Selects ds Linter.defaults

/-- The linters that a configuration to start from enables. -/
def chosenIn (ds : List Detection) : List Linter :=
  if (recommendedIn ds).isEmpty then presentIn ds else recommendedIn ds

theorem enabledIn_eq (ds : List Detection) :
    enabledIn ds = ds.map fun d => (d.linter, (chosenIn ds).contains d.linter) := rfl

theorem selects_chosenIn (ds : List Detection) :
    Selects ds (if (chosenIn ds).isEmpty then Linter.defaults else chosenIn ds) := by
  rw [chosenIn]
  split
  · next hnone =>
    rw [List.isEmpty_iff] at hnone
    split
    · next hnone' => exact .defaults hnone (List.isEmpty_iff.1 hnone')
    · next hsome => exact .present hnone fun hnil => hsome (List.isEmpty_iff.2 hnil)
  · next hsome =>
    exact .recommended fun hnil => hsome (List.isEmpty_iff.2 hnil)

theorem exists_chosenIn (ds : List Detection) :
    ∃ p : Detection → Bool, chosenIn ds = (ds.filter p).map Detection.linter := by
  rw [chosenIn]
  split
  · exact ⟨_, rfl⟩
  · exact ⟨_, rfl⟩

/-- Where each linter was looked at once, the configuration enables the linters that are chosen, and
no others. -/
theorem enabledLinters_enabledIn (hnodup : (ds.map Detection.linter).Nodup) :
    (Config.templateConfig (enabledIn ds)).enabledLinters = chosenIn ds := by
  obtain ⟨p, hp⟩ := exists_chosenIn ds
  have hsame : ds.filter (fun d => (chosenIn ds).contains d.linter) = ds.filter p := by
    refine List.filter_congr fun d hd => ?_
    rw [Bool.eq_iff_iff, List.contains_iff_mem, hp, List.mem_map]
    constructor
    · rintro ⟨d', hd', hsame⟩
      obtain ⟨hd', hpd⟩ := List.mem_filter.1 hd'
      exact List.inj_on_of_nodup_map hnodup hd' hd hsame ▸ hpd
    · exact fun hpd => ⟨d, List.mem_filter.2 ⟨hd, hpd⟩, rfl⟩
  rw [Config.enabledLinters, Config.templateConfig, enabledIn_eq]
  simp only [List.map_map, List.filter_map, Function.comp_def]
  rw [hsame, hp]

/-! ## What the command does -/

/-- The folder of a command is the one that is asked for, with its links followed. -/
theorem rootOf_eq_ok_iff : rootOf h workDir cwd = .ok root ↔
    h.tree.trail (askedFor workDir cwd) ≠ .error .tooManyLinks ∧
      h.tree.trail (askedFor workDir cwd) ≠ .error .tooLong ∧
      h.tree.isFolder root = true ∧ root = h.tree.real (askedFor workDir cwd) := by
  -- the path that is asked for differs in the two cases, the rest does not
  cases cwd
  all_goals
    unfold rootOf askedFor
    dsimp only
    split
    · next htrail => simp [htrail]
    · next htrail => simp [htrail]
    · next hloop hlong =>
      split
      · next hfolder =>
        constructor
        · rintro ⟨⟩
          exact ⟨hloop, hlong, hfolder, rfl⟩
        · rintro ⟨-, -, -, rfl⟩
          rfl
      · next hfolder =>
        refine iff_of_false (fun heq => by cases heq) ?_
        rintro ⟨-, -, hroot, rfl⟩
        exact hfolder hroot

theorem Detected.linters {ss : List (Job.Step Event)} (hds : Detected h root r ss ds) :
    ds.map Detection.linter = Linter.all := by
  obtain ⟨_, _, -, hdetect, -⟩ := hds
  exact hdetect.mayEnd.of_ensures (Detection.ensures_linters h root) ds rfl

theorem writeText_eq_ok_iff {t' : Tree} {p : Path} {text : String} :
    writeText t p text = .ok t' ↔
      t.isFolder p = false ∧ t.write p (Text.Utf8.encode text.toList) = .ok t' := by
  rw [writeText]
  cases t.isFolder p <;> simp [Faulty.mapError_eq_ok]

/-- A configuration that exists is not overwritten. -/
theorem init_of_holds (hroot : rootOf h workDir cwd = .ok root)
    (hholds : h.tree.holds (root.child configName) = true) :
    init h workDir false cwd =
      (Stop.told s!"{configName} already exists (use --force to overwrite)").finish := by
  obtain ⟨n, hn⟩ := Option.isSome_iff_exists.1 hholds
  rw [init, hroot]
  dsimp only
  rw [Tree.isTooLong_of_node? hn, hholds]
  rfl

/-! ## What a run of the linters then finds -/

/-- A run of the linters has the settings to which the configuration of its folder and what the
request says in its place are resolved. -/
theorem prepare_eq_ok_iff {q : LintRequest} {loaded : LoadedConfig} {s : Settings}
    (hroot : rootOf h workDir q.cwd = .ok root) (hload : Config.load h.tree root = .ok loaded) :
    prepare h workDir q = .ok s ↔
      ∃ o, overrides q = .ok o ∧ Settings.resolve root loaded o = .ok s := by
  have hprepare : prepare h workDir q = settingsOf h root q := by
    rw [prepare, hroot]
    rfl
  rw [hprepare, settingsOf, hload]
  constructor
  · intro hs
    obtain ⟨_, ⟨⟩, hs⟩ := Faulty.bind_eq_ok.1 hs
    obtain ⟨o, ho, hs⟩ := Faulty.bind_eq_ok.1 hs
    refine ⟨o, ho, ?_⟩
    split at hs
    · next hresolve =>
      cases hs
      exact hresolve
    · cases hs
  · rintro ⟨o, ho, hs⟩
    refine Faulty.bind_eq_ok.2 ⟨loaded, rfl, Faulty.bind_eq_ok.2 ⟨o, ho, ?_⟩⟩
    rw [hs]
    rfl

/-- A request that names no linters leaves the choice to the configuration. -/
theorem overrides_of_unnamed {q : LintRequest} {o : Overrides} (hq : q.linters = none)
    (ho : overrides q = .ok o) : o.linters = none ∧ o.timeoutMs = q.timeoutMs := by
  rw [overrides, hq] at ho
  obtain ⟨_, ⟨⟩, ho⟩ := Faulty.bind_eq_ok.1 ho
  obtain ⟨_, -, ho⟩ := Faulty.bind_eq_ok.1 ho
  cases ho
  exact ⟨rfl, rfl⟩

/-- A configuration to start from has been written for what was detected: nothing else is changed, it
is the one that is loaded, and a run of the linters in its folder that is not told which ones to run
has settings, with the linters that the detection selects. -/
structure Starts (h : Host) (root : Path) (ds : List Detection) (t : Tree) : Prop where
  rest : t.remove (root.child configName) = h.tree.remove (root.child configName)
  loaded : ∃ c, Config.load t root = .ok ⟨some (root.child configName), c⟩
  settles : ∀ workDir q o, rootOf { h with tree := t } workDir q.cwd = .ok root → q.linters = none →
    overrides q = .ok o → (∀ n ∈ q.timeoutMs, 0 < n) →
      ∃ s, prepare { h with tree := t } workDir q = .ok s
  selects : ∀ workDir q s, rootOf { h with tree := t } workDir q.cwd = .ok root → q.linters = none →
    prepare { h with tree := t } workDir q = .ok s → Selects ds s.linters

theorem starts_of_wrote (hds : ds.map Detection.linter = Linter.all)
    (hw : h.tree.Wrote t (root.child configName)
      (Text.Utf8.encode (Config.template (enabledIn ds)).toList)) : Starts h root ds t := by
  have hnodup : (ds.map Detection.linter).Nodup := hds ▸ by decide
  have hload : Config.load t root =
      .ok ⟨some (root.child configName), Config.templateConfig (enabledIn ds)⟩ := by
    refine Config.load_of_wrote ?_ hw
    rw [enabledIn_eq, List.map_map]
    exact hnodup
  have hcheck := Config.check_template (enabledIn ds)
  refine ⟨hw.rest, ⟨_, hload⟩, fun workDir q o hroot hq ho htimeout => ?_,
    fun workDir q s hroot hq hs => ?_⟩
  · obtain ⟨hlinters, htime⟩ := overrides_of_unnamed hq ho
    obtain ⟨s, hs⟩ := Settings.exists_resolve hcheck hlinters (htime ▸ htimeout)
    exact ⟨s, (prepare_eq_ok_iff (h := { h with tree := t }) hroot hload).2 ⟨o, ho, hs⟩⟩
  · obtain ⟨o, ho, hs⟩ := (prepare_eq_ok_iff (h := { h with tree := t }) hroot hload).1 hs
    obtain ⟨hlinters, -⟩ := overrides_of_unnamed hq ho
    rw [Settings.linters_of_resolve hlinters hs, enabledLinters_enabledIn hnodup]
    exact selects_chosenIn ds

/-- The folder of a command is found again where what was in the tree is still there. -/
theorem rootOf_of_keeps (hroot : rootOf h workDir cwd = .ok root)
    (hasked : h.tree.isFolder (askedFor workDir cwd) = true) (hk : h.tree.root.Keeps t.root) :
    rootOf { h with tree := t } workDir cwd = .ok root := by
  obtain ⟨-, -, hfolder, rfl⟩ := rootOf_eq_ok_iff.1 hroot
  obtain ⟨hasked, hreal⟩ := Tree.isFolder_of_keeps hk hasked
  obtain ⟨T, -, hT, -⟩ := Tree.isFolder_iff.1 hasked
  refine rootOf_eq_ok_iff.2 ⟨?_, ?_, (Tree.isFolder_of_keeps hk hfolder).1, hreal.symm⟩
  · exact fun hloop => by cases hT.symm.trans hloop
  · exact fun hlong => by cases hT.symm.trans hlong

/-- **A configuration to start from is safe, and is what the linters are run with.** One that exists is
not overwritten unless this is asked for: the command ends with the status of an error of the tools,
calls no program and changes nothing. Where it ends with another status than zero it changes nothing
either. Where it ends with zero, and the entry of the configuration is no link, the configuration has
been written for what was detected, and a run of the linters finds the same folder again. -/
theorem init_starts (h : Host) (workDir : Path) (force : Bool) (cwd : Option String) (r : Runner)
    (root : Path) (hroot : rootOf h workDir cwd = .ok root) :
    (force = false → h.tree.holds (root.child configName) = true →
      (∃ ss, (init h workDir force cwd).Course r ss { status := 2 }) ∧
      ∀ ss e, (init h workDir force cwd).Course r ss e → e = { status := 2 } ∧ Job.calls ss = []) ∧
    ∀ ss e, (init h workDir force cwd).Course r ss e →
      (e.status ≠ 0 → e.tree = none) ∧
      (e.status = 0 → ¬ h.tree.IsLink (root.child configName) →
        ∃ ds t, Detected h root r ss ds ∧ e.tree = some t ∧ Starts h root ds t ∧
          (h.tree.isFolder (askedFor workDir cwd) = true →
            rootOf { h with tree := t } workDir cwd = .ok root)) := by
  refine ⟨?_, fun ss e hc => ?_⟩
  · rintro rfl hholds
    rw [init_of_holds hroot hholds]
    refine ⟨⟨_, course_finish.2 ⟨rfl, rfl⟩⟩, fun ss e hc => ?_⟩
    obtain ⟨rfl, rfl⟩ := course_finish.1 hc
    exact ⟨rfl, rfl⟩
  · cases concludes_of_course hroot hc with
    | stopped hstatus htree => exact ⟨fun _ => htree, fun hzero => absurd hzero hstatus⟩
    | @wrote ds t hds hlong hw he =>
      subst he
      refine ⟨fun hne => absurd rfl hne, fun _ hlink => ?_⟩
      obtain ⟨hfolder, hwrite⟩ := writeText_eq_ok_iff.1 hw
      have hroot' : h.tree.isFolder root = true := (rootOf_eq_ok_iff.1 hroot).2.2.1
      have hname : Tree.IsEntryName configName := by decide +kernel
      have hwrote := Tree.wrote_of_write hroot' hname (by decide) hlong hlink hfolder hwrite
      exact ⟨ds, t, hds, rfl, starts_of_wrote hds.linters hwrote,
        fun hasked => rootOf_of_keeps hroot hasked hwrote.keeps⟩

namespace Sample

/-- A project with two linters, one of which is configured. -/
def configured : Host where
  tree := ⟨.folder [("eslint.config.js", .file [] false), ("node_modules", .folder
    [(".bin", .folder [("eslint", .file [] true), ("oxlint", .file [] true)])])]⟩
  searchPath := []

end Sample

/-- What `init_starts` asks for does occur: in the end the linter that is configured is selected. -/
theorem init_starts_configured : ∃ ss e ds t s,
    (init Sample.configured ⟨1, []⟩ false none).Course (.exactly fun _ => .ok {}) ss e ∧ e.status = 0 ∧
      Detected Sample.configured ⟨1, []⟩ (.exactly fun _ => .ok {}) ss ds ∧ e.tree = some t ∧
      Starts Sample.configured ⟨1, []⟩ ds t ∧
      prepare { Sample.configured with tree := t } ⟨1, []⟩ {} = .ok s ∧ s.linters = [.eslint] := by
  have hroot : rootOf Sample.configured ⟨1, []⟩ none = .ok ⟨1, []⟩ := rfl
  obtain ⟨ss, e, hc⟩ := Job.exists_course (Runner.total_exactly fun _ => .ok {})
    (init Sample.configured ⟨1, []⟩ false none)
  have hstatus : e.status = 0 := by
    rw [Job.mayEnd_exactly.1 hc.mayEnd]
    decide +kernel
  have hlink : ¬ Sample.configured.tree.IsLink ((⟨1, []⟩ : Path).child configName) := by
    rw [Tree.isLink_child]
    rintro ⟨_, target, ⟨⟩, hlink⟩
    cases hlink
  obtain ⟨ds, t, hds, htree, hstarts, hagain⟩ :=
    ((init_starts Sample.configured ⟨1, []⟩ false none _ ⟨1, []⟩ hroot).2 ss e hc).2 hstatus hlink
  have hrecommended : recommendedIn ds = [.eslint] := by
    have hfound : ((Detection.detectAll Sample.configured ⟨1, []⟩).value fun _ => .ok {}).map
        recommendedIn = .ok [.eslint] := by
      decide +kernel
    obtain ⟨_, _, -, hdetect, -⟩ := hds
    rw [← Job.mayEnd_exactly.1 hdetect.mayEnd] at hfound
    exact Except.ok.inj hfound
  obtain ⟨s, hs⟩ := hstarts.settles ⟨1, []⟩ {} {} (hagain rfl) rfl rfl (fun _ h => by cases h)
  refine ⟨ss, e, ds, t, s, hc, hstatus, hds, htree, hstarts, hs, ?_⟩
  have hselects := hstarts.selects ⟨1, []⟩ {} s (hagain rfl) rfl hs
  generalize s.linters = ls at hselects ⊢
  cases hselects with
  | recommended => exact hrecommended
  | present hnone => cases hrecommended.symm.trans hnone
  | defaults hnone => cases hrecommended.symm.trans hnone

end Command
end LintMerge
