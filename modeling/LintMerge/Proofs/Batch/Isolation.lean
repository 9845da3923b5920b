/-
# Linters do not meet

Against programs of which the answers are a function of the calls, all schedules of a
batch come to one result, that of carrying out one job after the other
(`inevitably_value`). It is made from what each linter contributes (`contribution`), and
what a linter contributes does not depend on which others are asked for. So the report of
a batch is put together from the reports of runs of one linter alone, and what one
linter's programs answer has no bearing on the runs and issues of the others
(`Isolated`).

There is one way out. Issues are sorted when all runs are over, and the order of a C
library has no key for a path that holds `U+0000`: one such issue, found by one linter,
and there is no report at all. `inevitably_isolated_iff` says that this is the only way,
and `not_inevitably_isolated` that there is one.
-/

import LintMerge.Proofs.Batch.Containment
import LintMerge.Proofs.Text.Folding

namespace LintMerge
namespace Batch

variable {h : Host} {t : Stamp} {o : Options} {answer : Call → Answer}

/-- The options of a batch with one linter in the place of those asked for. -/
def Options.only (o : Options) (l : Linter) : Options :=
  { o with linters := [l], nodup := List.nodup_singleton l }

/-- What a linter contributes to a batch: its attempt, if it answers its probe. -/
def contribution (h : Host) (o : Options) (answer : Call → Answer) (k : Tool) : Option Attempt :=
  if (probe h o k).value answer then some ((attempt h o k).value answer) else none

/-- The issues that a linter contributes. -/
def found (h : Host) (o : Options) (answer : Call → Answer) (k : Tool) : List Issue :=
  (contribution h o answer k).toList.flatMap (·.issues)

/-- The run of one linter alone. -/
def alone (h : Host) (t : Stamp) (o : Options) (l : Linter) : Job Event Result :=
  runOver h t (o.only l) (o.only l).tools

theorem eq_map_of_forall₂ {α β : Type} {f : α → β} {as : List α} {bs : List β}
    (hab : List.Forall₂ (fun a b => b = f a) as bs) : bs = as.map f := by
  induction hab with
  | nil => rfl
  | cons hb _ ih => rw [List.map_cons, hb, ih]

theorem answered_map_eq_filter {α : Type} (as : List α) (f : α → Bool) :
    answered as (as.map f) = as.filter f := by
  induction as with
  | nil => rfl
  | cons a as ih =>
    rw [List.map_cons, List.filter_cons]
    cases f a with
    | true => rw [answered_true, ih, if_pos rfl]
    | false => rw [answered_false, ih, if_neg Bool.false_ne_true]

/-- The attempts of the linters that answer are what the linters contribute. -/
theorem map_attempt_eq (ts : List Tool) :
    (ts.filter fun k => (probe h o k).value answer).map (fun k => (attempt h o k).value answer) =
      ts.filterMap (contribution h o answer) := by
  induction ts with
  | nil => rfl
  | cons k ts ih =>
    rw [List.filter_cons, List.filterMap_cons, contribution]
    split
    · rw [List.map_cons, ih]
    · exact ih

/-- One job after the other, a batch comes to the report of what its linters contribute. -/
theorem value_runOver (hfiles : o.files ≠ []) (ts : List Tool) :
    (runOver h t o ts).value answer = report h t o (ts.filterMap (contribution h o answer)) := by
  rw [runOver, if_neg (by simpa using hfiles), runLinters, Job.value_bind, Job.value_inTurn,
    Job.value_bind, attempts, Job.value_bind, Job.value_inTurn, Job.value_done,
    Job.ensures_exactly.1 (ensures_select _)]
  have hanswered : (((ts.zip ((ts.map (probe h o)).map (·.value answer))).filter (·.2)).map (·.1)) =
      ts.filter fun k => (probe h o k).value answer := by
    rw [List.map_map]
    exact answered_map_eq_filter ts _
  rw [hanswered, List.map_map]
  exact congrArg (report h t o) (map_attempt_eq ts)

/-- **The order of turns does not matter.** Against a function, every schedule comes to what
carrying out one job after the other comes to. -/
theorem inevitably_value (hfiles : o.files ≠ []) (ts : List Tool) :
    Inevitably h t o (.exactly answer) (fun _ res => res = (runOver h t o ts).value answer)
      (initial h t o ts) := by
  have hprobe : ∀ k ∈ ts, (probe h o k).Ensures (.exactly answer)
      (· = (probe h o k).value answer) := fun k _ => Job.ensures_exactly.2 rfl
  have hattempt : ∀ k ∈ ts, (attempt h o k).Ensures (.exactly answer)
      (· = (attempt h o k).value answer) := fun k _ => Job.ensures_exactly.2 rfl
  refine (inevitably_report (Runner.total_exactly answer) hfiles hprobe hattempt).mono ?_
  rintro flags res ⟨hflags, as, has, rfl⟩
  obtain rfl := eq_map_of_forall₂ hflags
  obtain rfl := eq_map_of_forall₂ has
  rw [value_runOver hfiles, ← map_attempt_eq, answered_map_eq_filter]

/-- What the built-in tools of a batch contribute, linter by linter. -/
theorem filterMap_tools (o : Options) {α : Type} (f : Tool → Option α) :
    o.tools.filterMap f = o.linters.flatMap fun l : Linter => (f l).toList := by
  rw [Options.tools, List.filterMap_map, List.filterMap_eq_flatMap_toList]
  rfl

/-- What a linter contributes is sound. -/
theorem sound_of_contribution {l : Linter} {a : Attempt} (ha : contribution h o answer l = some a) :
    a.Sound l o.files.length := by
  rw [contribution] at ha
  split at ha
  · cases ha
    exact Job.ensures_exactly.1 (ensures_attempt h o l)
  · cases ha

/-- The run of one linter alone has a report exactly when all its issues have their keys. -/
theorem alone_eq_ok_iff (hfiles : o.files ≠ []) {l : Linter} {rep : Report} :
    (alone h t o l).value answer = .ok rep ↔
      (∀ i ∈ found h o answer l, i.hasKeys h.collation = true) ∧
        rep = { timestamp := t, cwd := o.cwd.text, durationMs := 0,
                linters := (contribution h o answer l).toList.map (·.run),
                issues := Issue.sort h.collation (found h o answer l) } := by
  have hone : (o.only l).tools.filterMap (contribution h o answer) =
      (contribution h o answer l).toList := by
    rw [filterMap_tools]
    exact List.append_nil _
  have halone : (alone h t o l).value answer = report h t o (contribution h o answer l).toList := by
    rw [← hone]
    exact value_runOver (o := o.only l) hfiles _
  rw [halone]
  exact report_eq_ok_iff

/-- Other answers than those of a function, that are the same to all linters but one. -/
def AgreeBut (h : Host) (t : Stamp) (o : Options) (answer answer' : Call → Answer) (k : Linter) : Prop :=
  ∀ l ∈ o.linters, l ≠ k → ∀ c ∈ Job.calls ((alone h t o l).steps answer), answer' c = answer c

/-- Linters are isolated in the report of a batch. -/
structure Isolated (h : Host) (t : Stamp) (o : Options) (answer : Call → Answer) (rep : Report) :
    Prop where
  /-- the report is put together from those of the linters alone, in the order of the request -/
  composed : ∃ solo : Linter → Report,
    (∀ l ∈ o.linters, (alone h t o l).value answer = .ok (solo l)) ∧
      rep = { timestamp := t, cwd := o.cwd.text, durationMs := 0,
              linters := o.linters.flatMap fun l => (solo l).linters,
              issues := Issue.sort h.collation (o.linters.flatMap fun l => (solo l).issues) }
  /-- what the programs of one linter answer changes nothing of the others -/
  others : ∀ k answer', AgreeBut h t o answer answer' k → ∀ rep',
    (runOver h t o o.tools).value answer' = .ok rep' →
      rep'.linters.filter (·.linter ≠ k) = rep.linters.filter (·.linter ≠ k) ∧
        rep'.issues.filter (·.source ≠ k) = rep.issues.filter (·.source ≠ k)

/-- **Composition.** The report of a batch is put together from the reports of its linters alone:
an issue is sorted among those of its linter first and among all of them then. -/
theorem exists_solo (hfiles : o.files ≠ []) {rep : Report}
    (hrep : (runOver h t o o.tools).value answer = .ok rep) : ∃ solo : Linter → Report,
      (∀ l ∈ o.linters, (alone h t o l).value answer = .ok (solo l)) ∧
        rep = { timestamp := t, cwd := o.cwd.text, durationMs := 0,
                linters := o.linters.flatMap fun l => (solo l).linters,
                issues := Issue.sort h.collation (o.linters.flatMap fun l => (solo l).issues) } := by
  rw [value_runOver hfiles] at hrep
  obtain ⟨hkeys, rfl⟩ := report_eq_ok_iff.1 hrep
  have hissues : (o.tools.filterMap (contribution h o answer)).flatMap (·.issues) =
      o.linters.flatMap fun l : Linter => found h o answer l := by
    rw [filterMap_tools, List.flatMap_assoc]
    rfl
  refine ⟨fun l => { timestamp := t, cwd := o.cwd.text, durationMs := 0,
                     linters := (contribution h o answer l).toList.map (·.run),
                     issues := Issue.sort h.collation (found h o answer l) }, fun l hl => ?_, ?_⟩
  · refine (alone_eq_ok_iff hfiles).2 ⟨fun i hi => hkeys i ?_, rfl⟩
    rw [hissues]
    exact List.mem_flatMap.2 ⟨l, hl, hi⟩
  · rw [hissues, Issue.sort_flatMap, filterMap_tools, List.map_flatMap]

/-- In the report of one linter alone there is nothing of another. -/
theorem filter_solo {l k : Linter} {rep : Report} (hfiles : o.files ≠ [])
    (hrep : (alone h t o l).value answer = .ok rep) (hlk : l = k) :
    rep.linters.filter (·.linter ≠ k) = [] ∧ rep.issues.filter (·.source ≠ k) = [] := by
  obtain ⟨-, rfl⟩ := (alone_eq_ok_iff hfiles).1 hrep
  rw [List.filter_eq_nil_iff, List.filter_eq_nil_iff]
  constructor
  · intro run hrun
    obtain ⟨a, ha, rfl⟩ := List.mem_map.1 hrun
    simp [(sound_of_contribution (Option.mem_toList.1 ha)).linter, hlk]
  · intro i hi
    rw [Issue.mem_sort, found, List.mem_flatMap] at hi
    obtain ⟨a, ha, hia⟩ := hi
    simp [((sound_of_contribution (Option.mem_toList.1 ha)).found i hia).1, hlk]

/-- **Non-interference.** Two reports are put together from the same reports of all linters but
one, and the reports of that one hold nothing of the others. -/
theorem filter_eq_of_agreeBut (hfiles : o.files ≠ []) {k : Linter} {answer' : Call → Answer}
    (hagree : AgreeBut h t o answer answer' k) {rep rep' : Report}
    (hrep : (runOver h t o o.tools).value answer = .ok rep)
    (hrep' : (runOver h t o o.tools).value answer' = .ok rep') :
    rep'.linters.filter (·.linter ≠ k) = rep.linters.filter (·.linter ≠ k) ∧
      rep'.issues.filter (·.source ≠ k) = rep.issues.filter (·.source ≠ k) := by
  obtain ⟨solo, hsolo, rfl⟩ := exists_solo hfiles hrep
  obtain ⟨solo', hsolo', rfl⟩ := exists_solo hfiles hrep'
  have hsame : ∀ l ∈ o.linters, (solo' l).linters.filter (·.linter ≠ k) =
      (solo l).linters.filter (·.linter ≠ k) ∧
        (solo' l).issues.filter (·.source ≠ k) = (solo l).issues.filter (·.source ≠ k) := by
    intro l hl
    by_cases hlk : l = k
    · obtain ⟨hlinters, hissues⟩ := filter_solo hfiles (hsolo l hl) hlk
      obtain ⟨hlinters', hissues'⟩ := filter_solo hfiles (hsolo' l hl) hlk
      exact ⟨hlinters'.trans hlinters.symm, hissues'.trans hissues.symm⟩
    · have hrun := Job.run_congr (hagree l hl hlk)
      have hvalue : (alone h t o l).value answer' = (alone h t o l).value answer :=
        congrArg Prod.fst hrun
      rw [hsolo l hl, hsolo' l hl] at hvalue
      rw [Except.ok.inj hvalue]
      exact ⟨rfl, rfl⟩
  constructor
  · rw [List.filter_flatMap, List.filter_flatMap]
    exact List.flatMap_congr fun l hl => (hsame l hl).1
  · rw [Issue.filter_sort, Issue.filter_sort, List.filter_flatMap, List.filter_flatMap]
    exact congrArg _ (List.flatMap_congr fun l hl => (hsame l hl).2)

/-- Whether no linter that is asked for contributes an issue without keys. -/
def AllSortable (h : Host) (o : Options) (answer : Call → Answer) : Prop :=
  ∀ l ∈ o.linters, ∀ i ∈ found h o answer l, i.hasKeys h.collation = true

/-- **Isolation, and the one way out of it.** Every schedule of a batch of registered linters
over some files comes to the same result, as does every schedule of one of them alone. When
all contributed issues have their keys, which in the order of a C library all have but those
with `U+0000` in their path, that is a report in which the linters are isolated; otherwise
no linter has a run in any report. -/
theorem inevitably_isolated_iff (h : Host) (reg : Registry) (t : Stamp) (o : Options)
    (answer : Call → Answer) (hfiles : o.files ≠ [])
    (hreg : ∀ l ∈ o.linters, l.tool ∈ reg.orBuiltin.tools) :
    (∃ p, start h reg t o = .ok p ∧ Inevitably h t o (.exactly answer) (fun _ res =>
      res = (runOver h t o o.tools).value answer ∧
        (AllSortable h o answer → ∃ rep, res = .ok rep ∧ Isolated h t o answer rep) ∧
        (¬ AllSortable h o answer → ∃ fault, res = .error fault)) p) ∧
      (∀ l ∈ o.linters, ∃ p, start h reg t (o.only l) = .ok p ∧
        Inevitably h t (o.only l) (.exactly answer)
          (fun _ res => res = (alone h t o l).value answer) p) ∧
      (h.collation = .system → (AllSortable h o answer ↔
        ∀ l ∈ o.linters, ∀ i ∈ found h o answer l, Glyph.char '\x00' ∉ i.spelling)) := by
  refine ⟨⟨initial h t o o.tools, start_of_builtin hfiles hreg, ?_⟩,
    fun l hl => ⟨initial h t (o.only l) (o.only l).tools, start_of_builtin hfiles ?_, ?_⟩, ?_⟩
  · have hkeys : AllSortable h o answer ↔
        ∀ i ∈ (o.tools.filterMap (contribution h o answer)).flatMap (·.issues),
          i.hasKeys h.collation = true := by
      rw [filterMap_tools, List.flatMap_assoc]
      simp only [AllSortable, found, List.mem_flatMap]
      constructor
      · rintro hall i ⟨l, hl, a, ha, hi⟩
        exact hall l hl i ⟨a, ha, hi⟩
      · rintro hall l hl i ⟨a, ha, hi⟩
        exact hall i ⟨l, hl, a, ha, hi⟩
    refine (inevitably_value hfiles o.tools).mono ?_
    rintro _ res rfl
    refine ⟨rfl, fun hall => ?_, fun hnot => ?_⟩
    · obtain ⟨rep, hrep⟩ : ∃ rep, (runOver h t o o.tools).value answer = .ok rep := by
        rw [value_runOver hfiles]
        exact ⟨_, report_eq_ok_iff.2 ⟨hkeys.1 hall, rfl⟩⟩
      exact ⟨rep, hrep, exists_solo hfiles hrep, fun k answer' hagree rep' hrep' =>
        filter_eq_of_agreeBut hfiles hagree hrep hrep'⟩
    · cases hres : (runOver h t o o.tools).value answer with
      | error fault => exact ⟨fault, rfl⟩
      | ok rep =>
        rw [value_runOver hfiles] at hres
        exact absurd (hkeys.2 (report_eq_ok_iff.1 hres).1) hnot
  · exact fun l' hl' => List.mem_singleton.1 hl' ▸ hreg l hl
  · exact inevitably_value (o := o.only l) hfiles _
  · intro hsystem
    rw [AllSortable, hsystem]
    simp only [Issue.hasKeys_system]

/-- The hypotheses of `inevitably_isolated_iff` hold together: two of three linters are there, and
their programs do nothing. -/
theorem inevitably_isolated_iff_idle :
    Sample.options.files ≠ [] ∧
      (∀ l ∈ Sample.options.linters, l.tool ∈ Registry.builtin.orBuiltin.tools) ∧
      ∃ p, start (Sample.host .system) .builtin default Sample.options = .ok p ∧
        Inevitably (Sample.host .system) default Sample.options (.exactly Sample.idle) (fun _ res =>
          ∃ rep, res = .ok rep ∧
            Isolated (Sample.host .system) default Sample.options Sample.idle rep) p := by
  have hfiles : Sample.options.files ≠ [] := by decide
  have hreg : ∀ l ∈ Sample.options.linters, l.tool ∈ Registry.builtin.orBuiltin.tools :=
    fun l _ => Registry.mem_builtin l
  have hsortable : AllSortable (Sample.host .system) Sample.options Sample.idle := by
    unfold AllSortable
    decide +kernel
  obtain ⟨⟨p, hp, hinevitably⟩, -, -⟩ :=
    inevitably_isolated_iff (Sample.host .system) .builtin default Sample.options Sample.idle hfiles hreg
  exact ⟨hfiles, hreg, p, hp, hinevitably.mono fun _ _ hres => hres.2.1 hsortable⟩

/-- Programs of which the type checker finds an error in a file with `U+0000` in its name. -/
def Sample.nullPath : Call → Answer := fun c =>
  if c.command = "/bin/tsc" ∧ c.args ≠ Linter.versionArgs then
    .ok { stdout := "a\x00.ts(1,1): error TS1: m", exitCode := 2 }
  else .ok {}

/-- **Linters are not isolated from a path that cannot be sorted.** One linter finds an issue in
such a path, and the other, which has worked, has no run in any report. -/
theorem not_inevitably_isolated :
    ¬ ∃ p, start (Sample.host .system) .builtin default Sample.options = .ok p ∧
      Inevitably (Sample.host .system) default Sample.options (.exactly Sample.nullPath)
        (fun _ res => ∃ rep, res = .ok rep ∧
          Isolated (Sample.host .system) default Sample.options Sample.nullPath rep) p := by
  rintro ⟨p, hp, hisolated⟩
  have hfiles : Sample.options.files ≠ [] := by decide
  have hstart : start (Sample.host .system) .builtin default Sample.options =
      .ok (initial (Sample.host .system) default Sample.options Sample.options.tools) := rfl
  rw [hstart] at hp
  cases hp
  obtain ⟨_, _, ⟨rep, hok, -⟩, rfl⟩ := hisolated.exists_both (inevitably_value hfiles _)
  rw [value_runOver hfiles] at hok
  have hkeys := List.all_eq_true.2 (report_eq_ok_iff.1 hok).1
  have hnone : ((Sample.options.tools.filterMap (contribution (Sample.host .system) Sample.options
      Sample.nullPath)).flatMap (·.issues)).all (·.hasKeys .system) = false := by
    decide +kernel
  exact Bool.false_ne_true (hnone.symm.trans hkeys)

end Batch
end LintMerge
