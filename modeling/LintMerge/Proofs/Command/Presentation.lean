/-
# Presentation does not change results

Four flags of a run of the linters (`lint_command`) concern its presentation: whether progress and
details are shown, and how the report is written. None of them has a bearing on the calls that a run
makes or on the report that it comes to, and those that concern what is shown on the way have none
on how it ends.

The batch of a run is carried out by workers in any order (`Runs`), so two runs of one request do
not make their calls in the same order. But against a runner with one answer for each call every run
makes the calls of one job after the other and ends as they do (`Runs.perm`), and these depend on
the request only without its flags of the presentation (`lint_alike`).

How a report is written has a bearing on the status all the same. A document tells of fixes and of
rules, which lines do not, and a half of a pair in these keeps the document from being written: the
program dies with the status of issues found where the lines would have been printed
(`not_status_alike`). Two runs end with one status in all other cases (`carried_alike`).
-/

import LintMerge.Proofs.Batch.Traces
import LintMerge.Proofs.Command.Flags
import LintMerge.Proofs.Command.Statuses

namespace LintMerge

namespace Batch

variable {h : Host} {o : Options} {ts : List Tool} {answer : Call → Answer}

/-- When a batch is run has no bearing on what is done. -/
theorem steps_runOver (t t' : Stamp) :
    (runOver h t o ts).steps answer = (runOver h t' o ts).steps answer := by
  unfold runOver
  split
  · rfl
  · simp only [runLinters, Job.steps_bind, Job.steps_done]

/-- When a batch is run is told by its report, and nothing else of it depends on that. -/
theorem exists_value_runOver (h : Host) (o : Options) (ts : List Tool) (answer : Call → Answer) :
    ∃ as, ∀ t, (runOver h t o ts).value answer = report h t o as := by
  unfold runOver
  split
  · exact ⟨[], fun t => rfl⟩
  · simp only [runLinters, Job.value_bind, Job.value_done]
    exact ⟨_, fun t => rfl⟩

theorem report_timestamp (h : Host) (o : Options) (as : List Attempt) :
    (∃ fault, ∀ t, report h t o as = .error fault) ∨
      ∃ rep : Report, ∀ t, report h t o as = .ok { rep with timestamp := t } := by
  unfold report
  cases Issue.sorted h.collation (as.flatMap (·.issues)) with
  | error fault => exact .inl ⟨fault, fun t => rfl⟩
  | ok issues => exact .inr ⟨⟨default, o.cwd.text, 0, as.map (·.run), issues⟩, fun t => rfl⟩

end Batch

namespace Report

/-- The halves of pairs in the texts of a report are all in what it tells of fixes and of rules. -/
structure TornInDetail (rep : Report) : Prop where
  lines : ∀ i ∈ rep.issues, i.torn.path = none ∧ i.torn.message = none
  detail : ∃ i ∈ rep.issues, i.torn.detail ≠ none

/-- Lines are kept from being printed by the paths and the messages of issues. -/
theorem tornFrom_eq_none_iff {before : List Char} {issues : List Issue} :
    tornFrom before issues = none ↔ ∀ i ∈ issues, i.torn.path = none ∧ i.torn.message = none := by
  induction issues generalizing before with
  | nil => simp [tornFrom]
  | cons i issues ih =>
    rw [tornFrom, List.forall_mem_cons]
    cases i.torn.path with
    | some t => simp
    | none =>
      cases i.torn.message with
      | some t => simp
      | none => simpa using ih

/-- A document is kept from being written by each torn text of an issue. -/
theorem writeFault?_eq_none_iff {rep : Report} : rep.writeFault? = none ↔
    (∀ i ∈ rep.issues, i.torn.path = none ∧ i.torn.message = none) ∧
      ∀ i ∈ rep.issues, i.torn.detail = none := by
  rw [writeFault?, Option.map_eq_none_iff, List.head?_eq_none_iff, torn_eq_nil_iff, ← forall₂_and]
  exact forall₂_congr fun i _ => Issue.TornTexts.eq_empty_iff

end Report

namespace Command

variable {h : Host} {workDir : Path} {t t' : Stamp} {q q' : LintRequest} {r : Runner} {s : Settings}
  {answer : Call → Answer}

/-- A run of the linters, of which the batch is carried out on some schedule: the steps that it is
seen to take, and how it ends. -/
inductive Runs (h : Host) (workDir : Path) (t : Stamp) (q : LintRequest) (r : Runner) :
    List (Job.Step Event) → Ending → Prop where
  | refused {stop : Stop} {ss : List (Job.Step Event)} {e : Ending}
      (hprepare : prepare h workDir q = .error stop) (hend : stop.finish.Course r ss e) :
      Runs h workDir t q r ss e
  | nowhere {s : Settings} {stop : Stop} {ss₁ ss₂ : List (Job.Step Event)} {u : Unit} {e : Ending}
      (hprepare : prepare h workDir q = .ok s) (hconfig : (tellConfig s q.verbose).Course r ss₁ u)
      (htargets : targets h s = .error stop) (hend : stop.finish.Course r ss₂ e) :
      Runs h workDir t q r (ss₁ ++ ss₂) e
  | batch {s : Settings} {files : List Path} {ss₁ ss₂ ss₃ : List (Job.Step Event)} {u : Unit}
      {flags : List Bool} {res : Batch.Result} {e : Ending}
      (hprepare : prepare h workDir q = .ok s) (hconfig : (tellConfig s q.verbose).Course r ss₁ u)
      (htargets : targets h s = .ok files)
      (hbatch : Batch.Goes h t (batchOf s files) r
        (Batch.initial h t (batchOf s files) (batchOf s files).tools) ss₂
        (.concluding flags (.done res)))
      (hend : (conclude s q res).Course r ss₃ e) : Runs h workDir t q r (ss₁ ++ (ss₂ ++ ss₃)) e

/-- Some run of the linters comes to its end. -/
theorem exists_runs (hr : r.Total) (h : Host) (workDir : Path) (t : Stamp) (q : LintRequest) :
    ∃ ss e, Runs h workDir t q r ss e := by
  cases hprepare : prepare h workDir q with
  | error stop =>
    obtain ⟨ss, e, hend⟩ := Job.exists_course hr stop.finish
    exact ⟨ss, e, .refused hprepare hend⟩
  | ok s =>
    obtain ⟨ss₁, u, hconfig⟩ := Job.exists_course hr (tellConfig s q.verbose)
    cases htargets : targets h s with
    | error stop =>
      obtain ⟨ss₂, e, hend⟩ := Job.exists_course hr stop.finish
      exact ⟨_, e, .nowhere hprepare hconfig htargets hend⟩
    | ok files =>
      obtain ⟨ss₂, flags, res, hbatch⟩ := Batch.exists_goes h t (batchOf s files) hr
        (Batch.initial h t (batchOf s files) (batchOf s files).tools)
      obtain ⟨ss₃, e, hend⟩ := Job.exists_course hr (conclude s q res)
      exact ⟨_, e, .batch hprepare hconfig htargets hbatch hend⟩

/-- **Against a runner with one answer for each call** a run takes the steps of one job after the
other, in some order, and ends as they do. -/
theorem Runs.perm {ss : List (Job.Step Event)} {e : Ending} (hrun : Runs h workDir t q (.exactly answer) ss e) :
    ss.Perm ((lint h workDir t q).steps answer) ∧ e = (lint h workDir t q).value answer := by
  cases hrun with
  | refused hprepare hend =>
    rw [lint, hprepare]
    obtain ⟨rfl, rfl⟩ := Job.course_exactly.1 hend
    exact ⟨.rfl, rfl⟩
  | nowhere hprepare hconfig htargets hend =>
    rw [lint, hprepare]
    dsimp only
    rw [Job.steps_bind, Job.value_bind, lintOver, htargets]
    obtain ⟨rfl, rfl⟩ := Job.course_exactly.1 hend
    obtain ⟨rfl, rfl⟩ := Job.course_exactly.1 hconfig
    exact ⟨.rfl, rfl⟩
  | batch hprepare hconfig htargets hbatch hend =>
    rw [lint, hprepare]
    dsimp only
    rw [Job.steps_bind, Job.value_bind, lintOver, htargets]
    dsimp only
    rw [Job.steps_bind, Job.value_bind]
    obtain ⟨hsteps, rfl⟩ := Batch.perm_of_goes hbatch
    obtain ⟨rfl, rfl⟩ := Job.course_exactly.1 hend
    obtain ⟨rfl, rfl⟩ := Job.course_exactly.1 hconfig
    exact ⟨.append_left _ (hsteps.append_right _), rfl⟩

/-- Two ends of runs are alike but for the presentation: they are one, or each tells of one report,
but for its time. -/
inductive Alike (t t' : Stamp) (q q' : LintRequest) : Ending → Ending → Prop where
  | same (e : Ending) : Alike t t' q q' e e
  | reported (s : Settings) (rep : Report) :
      Alike t t' q q' (reported s q { rep with timestamp := t }) (reported s q' { rep with timestamp := t' })

theorem calls_tellFailures (lines : List String) : Job.calls ((tellFailures lines).steps answer) = [] := by
  induction lines with
  | nil => rfl
  | cons line rest ih => exact ih

theorem calls_tellConfig (s : Settings) (verbose : Bool) :
    Job.calls ((tellConfig s verbose).steps answer) = [] :=
  calls_of_course_tellConfig (Job.course_exactly.2 ⟨rfl, rfl⟩)

theorem calls_conclude (s : Settings) (q : LintRequest) (res : Batch.Result) :
    Job.calls ((conclude s q res).steps answer) = [] := by
  cases res with
  | error fault => rfl
  | ok rep =>
    rw [conclude, Job.steps_bind, Job.calls_append, calls_tellFailures]
    rfl

/-- What a run asks for has no bearing on the settings but without the flags of the presentation. -/
theorem prepare_drop (h : Host) (workDir : Path) (q : LintRequest) :
    prepare h workDir (q.drop presentation) = prepare h workDir q := rfl

/-- Runs with one result, but for its time, end alike. -/
theorem alike_conclude (s : Settings) (q q' : LintRequest) (o : Batch.Options) (as : List Attempt)
    (t t' : Stamp) : Alike t t' q q' ((conclude s q (Batch.report h t o as)).value answer)
      ((conclude s q' (Batch.report h t' o as)).value answer) := by
  rcases Batch.report_timestamp h o as with ⟨fault, hfault⟩ | ⟨rep, hrep⟩
  · rw [hfault, hfault]
    exact .same _
  · rw [hrep, hrep, conclude, conclude, Job.value_bind, Job.value_bind]
    exact .reported s rep

/-- **Presentation does not change reports.** Two requests that differ in flags of the presentation
only, at two times, make the same calls and end alike. -/
theorem lint_alike (h : Host) (workDir : Path) (answer : Call → Answer)
    (hq : q.drop presentation = q'.drop presentation) (t t' : Stamp) :
    Job.calls ((lint h workDir t q).steps answer) = Job.calls ((lint h workDir t' q').steps answer) ∧
      Alike t t' q q' ((lint h workDir t q).value answer) ((lint h workDir t' q').value answer) := by
  have hprepare : prepare h workDir q = prepare h workDir q' := by
    rw [← prepare_drop, hq, prepare_drop]
  rw [lint, lint, hprepare]
  cases prepare h workDir q' with
  | error stop => exact ⟨rfl, .same _⟩
  | ok s =>
    simp only [Job.steps_bind, Job.value_bind, Job.calls_append, calls_tellConfig, List.nil_append,
      lintOver]
    cases targets h s with
    | error stop => exact ⟨rfl, .same _⟩
    | ok files =>
      obtain ⟨as, has⟩ := Batch.exists_value_runOver h (batchOf s files) (batchOf s files).tools answer
      simp only [Job.steps_bind, Job.value_bind, Job.calls_append, calls_conclude, List.append_nil, has]
      exact ⟨congrArg _ (Batch.steps_runOver t t'), alike_conclude s q q' _ as t t'⟩

/-! ## Which reports are printed -/

/-- A report is printed unless a text is torn that is printed of it. -/
theorem printFault?_eq_none_iff {rep : Report} : printFault? q rep = none ↔
    (∀ i ∈ rep.issues, i.torn.path = none ∧ i.torn.message = none) ∧
      (q.json = true → ∀ i ∈ rep.issues, i.torn.detail = none) := by
  rw [printFault?]
  split
  · next hjson =>
    rw [Option.map_eq_none_iff, Report.writeFault?_eq_none_iff]
    simp [hjson]
  · next hjson =>
    rw [Option.map_eq_none_iff, Report.compactFault?, Option.map_eq_none_iff, Report.tornFrom_eq_none_iff]
    simp [hjson]

/-- One of two ways to write a report fails when they differ and what only a document tells is torn. -/
theorem printFault?_iff_iff {rep : Report} :
    (printFault? q rep = none ↔ printFault? q' rep = none) ↔ ¬ (q.json ≠ q'.json ∧ rep.TornInDetail) := by
  have htorn : rep.TornInDetail ↔ (∀ i ∈ rep.issues, i.torn.path = none ∧ i.torn.message = none) ∧
      ¬ ∀ i ∈ rep.issues, i.torn.detail = none := by
    push Not
    exact ⟨fun h => ⟨h.lines, h.detail⟩, fun h => ⟨h.1, h.2⟩⟩
  rw [printFault?_eq_none_iff, printFault?_eq_none_iff, htorn]
  by_cases hlines : ∀ i ∈ rep.issues, i.torn.path = none ∧ i.torn.message = none
  · cases q.json <;> cases q'.json <;> tauto
  · simp only [hlines, false_and, and_false, not_false_eq_true]

theorem status_reported (s : Settings) (q : LintRequest) (rep : Report) : (reported s q rep).status =
    if printFault? q rep = none then (rep.exitStatus s.failOn).code else Ending.crashStatus := by
  rw [reported]
  cases printFault? q rep <;> rfl

/-- The status of the end by a fault is that of issues found, and of no other result. -/
theorem code_eq_crashStatus_iff {x : ExitStatus} : x.code = Ending.crashStatus ↔ x = .issuesFound := by
  cases x <;> decide

/-- **When ends with one report have one status**: unless one of two ways to write it fails, and the
other one tells of no issue that fails the run. -/
theorem status_reported_iff (s : Settings) (q q' : LintRequest) (rep : Report) (t t' : Stamp) :
    (reported s q { rep with timestamp := t }).status =
        (reported s q' { rep with timestamp := t' }).status ↔
      ¬ (q.json ≠ q'.json ∧ rep.TornInDetail ∧ rep.exitStatus s.failOn ≠ .issuesFound) := by
  have hsplit : (printFault? q rep = none ↔ printFault? q' rep = none) ↔
      ¬ (q.json ≠ q'.json ∧ rep.TornInDetail) := printFault?_iff_iff
  have hcode := @code_eq_crashStatus_iff (rep.exitStatus s.failOn)
  rw [← and_assoc, not_and', ← hsplit, status_reported, status_reported]
  change (if printFault? q rep = none then (rep.exitStatus s.failOn).code else _) =
    (if printFault? q' rep = none then (rep.exitStatus s.failOn).code else _) ↔ _
  by_cases hq : printFault? q rep = none <;> by_cases hq' : printFault? q' rep = none
  · simp [hq, hq']
  · rw [if_pos hq, if_neg hq', hcode]
    simp [hq, hq']
  · rw [if_neg hq, if_pos hq', eq_comm, hcode]
    simp [hq, hq']
  · simp [hq, hq']

/-! ## Two command lines -/

/-- A command line that runs the linters: it is refused, it asks for help, or what it asks for is
run. -/
inductive Carried (h : Host) (workDir : Path) (t : Stamp) (args : List String) (r : Runner) :
    List (Job.Step Event) → Ending → Prop where
  | misused {fault : UsageFault} (hread : Request.read h.tree workDir ("lint" :: args) = .error fault) :
      Carried h workDir t args r [] { status := usageStatus }
  | helped (hread : Request.read h.tree workDir ("lint" :: args) = .ok (.help (some "lint"))) :
      Carried h workDir t args r []
        { status := ExitStatus.clean.code, stdout := h.help (some "lint") }
  | run {q : LintRequest} {ss : List (Job.Step Event)} {e : Ending}
      (hread : Request.read h.tree workDir ("lint" :: args) = .ok (.lint q))
      (hrun : Runs h workDir t q r ss e) : Carried h workDir t args r ss e

/-- Some run of a command line comes to its end. -/
theorem exists_carried (hr : r.Total) (h : Host) (workDir : Path) (t : Stamp) (args : List String) :
    ∃ ss e, Carried h workDir t args r ss e := by
  have hread := Request.read_lint h.tree workDir args
  cases hasked : Request.asked h.tree workDir args with
  | error fault =>
    rw [hasked] at hread
    exact ⟨_, _, .misused hread⟩
  | ok request =>
    rw [hasked] at hread
    rcases Request.of_asked hasked with rfl | ⟨q, rfl⟩
    · exact ⟨_, _, .helped hread⟩
    · obtain ⟨ss, e, hrun⟩ := exists_runs hr h workDir t q
      exact ⟨ss, e, .run hread hrun⟩

/-- How a command line is carried out that is refused, that asks for help, and that runs the linters. -/
theorem Carried.inv {args : List String} {ss : List (Job.Step Event)} {e : Ending}
    (hrun : Carried h workDir t args r ss e) :
    match Request.read h.tree workDir ("lint" :: args) with
    | .error _ => ss = [] ∧ e = { status := usageStatus }
    | .ok (.lint q) => Runs h workDir t q r ss e
    | .ok _ => ss = [] ∧ e = { status := ExitStatus.clean.code, stdout := h.help (some "lint") } := by
  cases hrun with
  | misused hread =>
    rw [hread]
    exact ⟨rfl, rfl⟩
  | helped hread =>
    rw [hread]
    exact ⟨rfl, rfl⟩
  | run hread hrun =>
    rw [hread]
    exact hrun

theorem LintRequest.drop_presentation {flags : List String} (hq : q.drop flags = q'.drop flags) :
    q.drop presentation = q'.drop presentation := by
  have hdrop (q : LintRequest) : (q.drop flags).drop presentation = q.drop presentation := by
    simp [drop, presentation]
  rw [← hdrop q, hq, hdrop]

/-- Requests that differ in how much is shown on the way write a report in one way. -/
theorem reported_congr {flags : List String} (hflags : flags ⊆ ["--quiet", "--verbose"])
    (hq : q.drop flags = q'.drop flags) (s : Settings) (rep : Report) :
    reported s q' rep = reported s q rep := by
  have hjson : "--json" ∉ flags := fun hmem => absurd (hflags hmem) (by decide)
  have hpretty : "--pretty" ∉ flags := fun hmem => absurd (hflags hmem) (by decide)
  have hsame : q.json = q'.json ∧ q.pretty = q'.pretty := by
    simp only [LintRequest.drop, LintRequest.mk.injEq] at hq
    simpa [hjson, hpretty] using And.intro hq.2.1 hq.2.2.1
  rw [reported, reported, printFault?, printFault?, printed, printed, hsame.1, hsame.2]

/-- Ends with one report that is written in one way differ in its time only. -/
theorem alike_reported (s : Settings) (q : LintRequest) (rep : Report) (t t' : Stamp) :
    (reported s q { rep with timestamp := t }).status = (reported s q { rep with timestamp := t' }).status ∧
      (reported s q { rep with timestamp := t }).unhandled =
        (reported s q { rep with timestamp := t' }).unhandled ∧
      ((reported s q { rep with timestamp := t }).stdout =
          (reported s q { rep with timestamp := t' }).stdout ∨
        (reported s q { rep with timestamp := t }).stdout = printed q { rep with timestamp := t } ∧
          (reported s q { rep with timestamp := t' }).stdout = printed q { rep with timestamp := t' }) := by
  have hfault : printFault? q { rep with timestamp := t' } = printFault? q { rep with timestamp := t } := rfl
  rw [reported, reported, hfault]
  cases printFault? q { rep with timestamp := t } with
  | some f => exact ⟨rfl, rfl, .inl rfl⟩
  | none => exact ⟨rfl, rfl, .inr ⟨rfl, rfl⟩⟩

/-- The ends of two command lines tell of one report, but for its time. -/
structure Tells (h : Host) (workDir : Path) (t t' : Stamp) (args args' : List String) (e e' : Ending)
    (q q' : LintRequest) (s : Settings) (rep : Report) : Prop where
  asked : Request.read h.tree workDir ("lint" :: args) = .ok (.lint q)
  asked' : Request.read h.tree workDir ("lint" :: args') = .ok (.lint q')
  ending : e = reported s q { rep with timestamp := t }
  ending' : e' = reported s q' { rep with timestamp := t' }

/-- Command lines that differ in flags of the presentation only make the same calls, and have one end
or tell of one report. -/
theorem Carried.alike {flags args args' : List String} (hflags : flags ⊆ presentation)
    (hargs : Arguments.without Request.lintOptions flags args =
      Arguments.without Request.lintOptions flags args')
    {ss ss' : List (Job.Step Event)} {e e' : Ending} (hrun : Carried h workDir t args (.exactly answer) ss e)
    (hrun' : Carried h workDir t' args' (.exactly answer) ss' e') :
    (Job.calls ss).Perm (Job.calls ss') ∧ (e = e' ∨ ∃ q q' s rep,
      Tells h workDir t t' args args' e e' q q' s rep ∧ q.drop flags = q'.drop flags) := by
  have hinv := hrun.inv
  have hinv' := hrun'.inv
  rcases Request.read_without hflags hargs with ⟨fault, hread, hread'⟩ | ⟨hread, hread'⟩ |
      ⟨q, q', hread, hread', hdrop⟩ <;> rw [hread] at hinv <;> rw [hread'] at hinv'
  · obtain ⟨⟨rfl, rfl⟩, rfl, rfl⟩ := And.intro hinv hinv'
    exact ⟨.rfl, .inl rfl⟩
  · obtain ⟨⟨rfl, rfl⟩, rfl, rfl⟩ := And.intro hinv hinv'
    exact ⟨.rfl, .inl rfl⟩
  · obtain ⟨hsteps, he⟩ := Runs.perm hinv
    obtain ⟨hsteps', he'⟩ := Runs.perm hinv'
    obtain ⟨hcalls, hends⟩ := lint_alike h workDir answer (LintRequest.drop_presentation hdrop) t t'
    have hperm := Job.perm_calls hsteps
    rw [hcalls] at hperm
    refine ⟨hperm.trans (Job.perm_calls hsteps').symm, ?_⟩
    rw [← he, ← he'] at hends
    cases hends with
    | same => exact .inl rfl
    | reported s rep => exact .inr ⟨q, q', s, rep, ⟨hread, hread', rfl, rfl⟩, hdrop⟩

/-- **Flags of the presentation and results.** Of two command lines that differ in such flags only,
each is carried out to its end; whenever they are, against a runner with one answer for each call and
whichever turns their workers take, they make the same calls, in some order. If they differ in how
much is shown on the way only, they end with one status and one fault, and print the same, or one
report in one way, but for its time. However they differ, they end with one status unless one of them
writes a document and the other one lines, of a report in which only what the document tells beyond
the lines is torn, and which would not have the status of issues found. -/
theorem carried_alike (h : Host) (workDir : Path) (answer : Call → Answer) (flags : List String)
    (args args' : List String) (hflags : flags ⊆ presentation)
    (hargs : Arguments.without Request.lintOptions flags args =
      Arguments.without Request.lintOptions flags args') :
    (∀ t, (∃ ss e, Carried h workDir t args (.exactly answer) ss e) ∧
      ∃ ss e, Carried h workDir t args' (.exactly answer) ss e) ∧
    ∀ t t' ss ss' e e', Carried h workDir t args (.exactly answer) ss e →
      Carried h workDir t' args' (.exactly answer) ss' e' →
        (Job.calls ss).Perm (Job.calls ss') ∧
        (flags ⊆ ["--quiet", "--verbose"] → e.status = e'.status ∧ e.unhandled = e'.unhandled ∧
          (e.stdout = e'.stdout ∨ ∃ (q : LintRequest) (rep : Report),
            Request.read h.tree workDir ("lint" :: args) = .ok (.lint q) ∧
            e.stdout = printed q { rep with timestamp := t } ∧
              e'.stdout = printed q { rep with timestamp := t' })) ∧
        (e.status = e'.status ↔ ¬ ∃ q q' s rep, Tells h workDir t t' args args' e e' q q' s rep ∧
          q.json ≠ q'.json ∧ rep.TornInDetail ∧ rep.exitStatus s.failOn ≠ .issuesFound) := by
  have htotal := Runner.total_exactly answer
  refine ⟨fun t => ⟨exists_carried htotal .., exists_carried htotal ..⟩,
    fun t t' ss ss' e e' hrun hrun' => ?_⟩
  obtain ⟨hcalls, hends⟩ := Carried.alike hflags hargs hrun hrun'
  refine ⟨hcalls, fun hshown => ?_, fun hstatus => ?_, fun hnone => ?_⟩
  · rcases hends with rfl | ⟨q, q', s, rep, ⟨hread, -, rfl, rfl⟩, hdrop⟩
    · exact ⟨rfl, rfl, .inl rfl⟩
    · rw [reported_congr hshown hdrop]
      obtain ⟨hstatus, hunhandled, hstdout⟩ := alike_reported s q rep t t'
      exact ⟨hstatus, hunhandled, hstdout.imp_right fun hprinted => ⟨q, rep, hread, hprinted⟩⟩
  · rintro ⟨q, q', s, rep, ⟨-, -, rfl, rfl⟩, hsplit⟩
    exact (status_reported_iff s q q' rep t t').1 hstatus hsplit
  · rcases hends with rfl | ⟨q, q', s, rep, htells, -⟩
    · rfl
    · rw [htells.ending, htells.ending']
      exact (status_reported_iff s q q' rep t t').2 fun hsplit => hnone ⟨q, q', s, rep, htells, hsplit⟩

/-- The conditions in `carried_alike` are met by a command line with a flag of the presentation in
front and one without it. -/
theorem carried_alike_quiet :
    ["--quiet", "--verbose"] ⊆ presentation ∧
      Arguments.without Request.lintOptions ["--quiet", "--verbose"] ["--quiet", "--linters", "eslint"] =
        Arguments.without Request.lintOptions ["--quiet", "--verbose"] ["--linters", "eslint"] ∧
      ∃ ss ss' e e',
        Carried (Batch.Sample.host .codePoints) Sample.folder default ["--quiet", "--linters", "eslint"]
          (.exactly Batch.Sample.idle) ss e ∧
        Carried (Batch.Sample.host .codePoints) Sample.folder default ["--linters", "eslint"]
          (.exactly Batch.Sample.idle) ss' e' ∧
        (Job.calls ss).Perm (Job.calls ss') ∧ e.status = e'.status ∧ e.stdout = e'.stdout := by
  have hflags : ["--quiet", "--verbose"] ⊆ presentation := by decide
  have hargs : Arguments.without Request.lintOptions ["--quiet", "--verbose"]
      ["--quiet", "--linters", "eslint"] =
        Arguments.without Request.lintOptions ["--quiet", "--verbose"] ["--linters", "eslint"] := by
    decide
  obtain ⟨hexists, hall⟩ := carried_alike (Batch.Sample.host .codePoints) Sample.folder
    Batch.Sample.idle _ _ _ hflags hargs
  obtain ⟨⟨ss, e, hrun⟩, ss', e', hrun'⟩ := hexists default
  obtain ⟨hcalls, hshown, -⟩ := hall default default ss ss' e e' hrun hrun'
  obtain ⟨hstatus, -, hstdout⟩ := hshown (List.Subset.refl _)
  refine ⟨hflags, hargs, ss, ss', e, e', hrun, hrun', hcalls, hstatus, ?_⟩
  rcases hstdout with hsame | ⟨q, rep, -, hprinted, hprinted'⟩
  · exact hsame
  · rw [hprinted, hprinted']

namespace Sample

/-- A project with one file, on a machine with one linter. -/
def lone : Host where
  tree := ⟨.folder [("bin", .folder [("oxlint", .file [] true)]),
    ("work", .folder [("a.ts", .file [] false)])]⟩
  searchPath := ["/bin"]
  collation := .codePoints

/-- The folder of the project. -/
def work : Path := ⟨1, ["work"]⟩

/-- A linter that warns of one thing, with half a pair in the address of what is known of the rule. -/
def halved : Call → Answer := fun c => .ok { stdout :=
  if c.args = ["--version"] then ""
  else "\x7b\"diagnostics\":[\x7b\"filename\":\"a.ts\",\"url\":\"\\ud800\",\"labels\":[\x7b\"span\":\x7b\"line\":1,\"column\":1\x7d\x7d]\x7d]\x7d" }

/-- What is asked of the run: lines or a document. -/
def lines : LintRequest := { linters := some "oxlint" }

def document : LintRequest := { lines with json := true }

theorem status_lines : ((lint lone work default lines).value halved).status = 0 := by decide +kernel

theorem status_document : ((lint lone work default document).value halved).status = 1 := by
  decide +kernel

end Sample

/-- **How a report is written may change the status.** Half a pair in the address of a rule is not
printed in lines, and keeps a document from being written. -/
theorem not_status_alike : ¬ ∀ (h : Host) (workDir : Path) (answer : Call → Answer)
    (flags args args' : List String), flags ⊆ presentation →
    Arguments.without Request.lintOptions flags args = Arguments.without Request.lintOptions flags args' →
    ∀ t t' ss ss' e e', Carried h workDir t args (.exactly answer) ss e →
      Carried h workDir t' args' (.exactly answer) ss' e' → e.status = e'.status := by
  intro hall
  have htotal := Runner.total_exactly Sample.halved
  have hread : Request.read Sample.lone.tree Sample.work ["lint", "--linters", "oxlint"] =
      .ok (.lint Sample.lines) := by decide +kernel
  have hread' : Request.read Sample.lone.tree Sample.work ["lint", "--json", "--linters", "oxlint"] =
      .ok (.lint Sample.document) := by decide +kernel
  obtain ⟨ss, e, hrun⟩ := exists_runs htotal Sample.lone Sample.work default Sample.lines
  obtain ⟨ss', e', hrun'⟩ := exists_runs htotal Sample.lone Sample.work default Sample.document
  have hstatus := hall Sample.lone Sample.work Sample.halved ["--json"] ["--linters", "oxlint"]
    ["--json", "--linters", "oxlint"] (by decide) (by decide) default default ss ss' e e'
    (.run hread hrun) (.run hread' hrun')
  rw [hrun.perm.2, hrun'.perm.2, Sample.status_lines, Sample.status_document] at hstatus
  cases hstatus

end Command
end LintMerge
