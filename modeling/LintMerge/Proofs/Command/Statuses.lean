/-
# The status of a run of the linters

A run of the linters ends with one of three statuses: nothing to complain of, issues found, an
error of the tools. The second one is what a script acts upon, so it is to say that a report was
printed and that it holds an issue of the severity that fails the run. What keeps a run from being
started, be it in the configuration, in the settings or in the patterns of files, is told on the
stream of errors and has the third status (`Told`).

A fault that nothing handles breaks this, because a program that dies has the second status. All
that keeps a run from being started is told, but for the faults that escape, and once a run is
started the program can only die of issues that cannot be sorted, or of a report with a torn text
that is to be printed (`lint_status`).
`not_toolError_of_stopped` gives a pattern that is refused and told by nobody.
-/

import LintMerge.Command.Screen
import LintMerge.Proofs.Batch.Containment
import LintMerge.Proofs.Command.Stops
import LintMerge.Proofs.Text.Splitting

namespace LintMerge

namespace Console

/-- A part of a line starts what is shown of the line. -/
theorem part_isPrefix_fillTabs (column : Nat) (part : List Char) (more : List (List Char)) :
    part <+: fillTabs column (part :: more) := by
  cases more with
  | nil => exact List.prefix_rfl
  | cons next more =>
    unfold fillTabs
    rw [List.append_assoc]
    exact List.prefix_append _ _

/-- Characters that are neither tabs nor ends of lines start what is shown of a text. -/
theorem isPrefix_expandTabs {s : List Char} (hline : '\n' ∉ s) (htab : '\t' ∉ s) (t : List Char) :
    s <+: expandTabs (s ++ t) := by
  obtain ⟨line, lines, -, hlines⟩ := Text.splitOn_append_of_not_mem hline t
  obtain ⟨part, parts, -, hparts⟩ := Text.splitOn_append_of_not_mem htab line
  rw [expandTabs, hlines, List.map_cons, hparts]
  have hpart : s <+: fillTabs 0 ((s ++ part) :: parts) :=
    (List.prefix_append s part).trans (part_isPrefix_fillTabs _ _ _)
  exact hpart.trans (Text.part_isPrefix_joinWith _ _ _)

end Console

namespace Command

variable {h : Host} {workDir : Path} {t : Stamp} {q : LintRequest} {r : Runner}

/-- The end of a command that was stopped. -/
def Stop.ending : Stop → Ending
  | told _ => { status := ExitStatus.toolError.code }
  | unhandled f => .ofUnhandled f

/-- The events that a command that was stopped tells of. -/
def Stop.events : Stop → List Event
  | told message => [.notice message]
  | unhandled _ => []

/-- A command that is stopped has one course. -/
theorem course_finish {stop : Stop} {ss : List (Job.Step Event)} {e : Ending} :
    stop.finish.Course r ss e ↔ ss = stop.events.map .told ∧ e = stop.ending := by
  cases stop with
  | told message =>
    rw [Stop.finish, Job.course_tell]
    constructor
    · rintro ⟨ss', rfl, hend⟩
      obtain ⟨rfl, rfl⟩ := Job.course_done.1 hend
      exact ⟨rfl, rfl⟩
    · rintro ⟨rfl, rfl⟩
      exact ⟨[], rfl, .done⟩
  | unhandled f => exact Job.course_done

/-- Telling which file configures a run calls no program. -/
theorem calls_of_course_tellConfig {s : Settings} {verbose : Bool} {ss : List (Job.Step Event)} {u : Unit}
    (hc : (tellConfig s verbose).Course r ss u) : Job.calls ss = [] := by
  unfold tellConfig at hc
  split at hc
  · split at hc
    · obtain ⟨ss', rfl, hend⟩ := Job.course_tell.1 hc
      obtain ⟨rfl, -⟩ := Job.course_done.1 hend
      rfl
    · obtain ⟨rfl, -⟩ := Job.course_done.1 hc
      rfl
  · obtain ⟨rfl, -⟩ := Job.course_done.1 hc
    rfl

/-- The courses of a run that is kept from being started: it calls no program, and in the end it
tells why, if that is told at all. -/
theorem course_of_stopped {stop : Stop} (hstop : Stopped h workDir q stop)
    {ss : List (Job.Step Event)} {e : Ending} (hc : (lint h workDir t q).Course r ss e) :
    e = stop.ending ∧ Job.calls ss = [] ∧ stop.events <:+ Job.events ss := by
  have hsteps : Job.calls (stop.events.map .told) = [] ∧
      Job.events (stop.events.map .told) = stop.events := by
    cases stop <;> exact ⟨rfl, rfl⟩
  cases hstop with
  | settings hstop =>
    rw [lint, hstop] at hc
    obtain ⟨rfl, rfl⟩ := course_finish.1 hc
    rw [hsteps.1, hsteps.2]
    exact ⟨rfl, rfl, List.suffix_rfl⟩
  | files hs hstop =>
    rw [lint, hs] at hc
    obtain ⟨ss₁, ss₂, _, rfl, hconfig, hc⟩ := Job.course_bind.1 hc
    rw [lintOver, hstop] at hc
    obtain ⟨rfl, rfl⟩ := course_finish.1 hc
    rw [Job.calls_append, calls_of_course_tellConfig hconfig, Job.events_append, hsteps.1, hsteps.2]
    exact ⟨rfl, rfl, List.suffix_append _ _⟩

/-- The lead of a notice stands in front of its first line. -/
theorem lead_isPrefix_noticeLines (m : String) : ∃ first more,
    noticeLines (Progress.lead ++ m) = first :: more ∧ Progress.lead.toList <+: first := by
  have hshown : Progress.lead.toList <+: Console.shown (Progress.lead ++ m).toList := by
    have hlead : Styled.printable Progress.lead.toList = Progress.lead.toList := by decide
    rw [Console.shown, String.toList_append, Styled.printable, List.filter_append, ← Styled.printable, hlead]
    exact Console.isPrefix_expandTabs (by decide) (by decide) _
  obtain ⟨rest, hrest⟩ := hshown
  have hline : '\n' ∉ Progress.lead.toList := by decide
  obtain ⟨part, more, -, hparts⟩ := Text.splitOn_append_of_not_mem hline rest
  refine ⟨_, more, ?_, List.prefix_append _ part⟩
  rw [noticeLines, ← hrest, hparts]

/-- A run of the linters has told why it was not started: it ends with the status of an error of
the tools, it called no program and printed nothing, and the last lines on the stream of errors are
those of a message. -/
structure Told (q : LintRequest) (message : String) (ss : List (Job.Step Event)) (e : Ending) : Prop where
  status : e.status = 2
  handled : e.unhandled = none
  stdout : e.stdout = ""
  calls : Job.calls ss = []
  lines : noticeLines (Progress.lead ++ message) <:+ (Request.lint q).lines (Job.events ss)
  lead : ∃ first more, noticeLines (Progress.lead ++ message) = first :: more ∧
    Progress.lead.toList <+: first

theorem told_of_stopped {message : String} (hstop : Stopped h workDir q (.told message))
    {ss : List (Job.Step Event)} {e : Ending} (hc : (lint h workDir t q).Course r ss e) :
    Told q message ss e := by
  obtain ⟨rfl, hcalls, before, hevents⟩ := course_of_stopped hstop hc
  refine ⟨rfl, rfl, rfl, hcalls, ?_, lead_isPrefix_noticeLines message⟩
  rw [Request.lines, ← hevents, List.flatMap_append, Stop.events, List.flatMap_singleton]
  exact List.suffix_append _ _

/-- A run of the linters may come to a report. -/
structure Makes (h : Host) (workDir : Path) (t : Stamp) (q : LintRequest) (r : Runner)
    (s : Settings) (report : Report) : Prop where
  settings : prepare h workDir q = .ok s
  reported : ∃ files, targets h s = .ok files ∧
    (Batch.runOver h t (batchOf s files) (batchOf s files).tools).MayEnd r (.ok report)

/-- The end of a run of the linters that was started and had a report. -/
structure Reported (h : Host) (workDir : Path) (t : Stamp) (q : LintRequest) (r : Runner) (e : Ending)
    (s : Settings) (report : Report) : Prop extends Makes h workDir t q r s report where
  handled : e.unhandled = none
  stdout : e.stdout = printed q report
  status : e.status = (report.exitStatus s.failOn).code

/-- How a run of the linters ends. -/
inductive Ends (h : Host) (workDir : Path) (t : Stamp) (q : LintRequest) (r : Runner) : Ending → Prop where
  | stopped {stop : Stop} (hstop : Stopped h workDir q stop) : Ends h workDir t q r stop.ending
  | unsortable {i : Issue} (hkeys : i.hasKeys h.collation = false) :
      Ends h workDir t q r (.ofUnhandled (.unsortable ⟨i.path⟩))
  | unprinted {s : Settings} {report : Report} {f : Unhandled} (hmakes : Makes h workDir t q r s report)
      (hfault : printFault? q report = some f) : Ends h workDir t q r (.ofUnhandled f)
  | reported {e : Ending} {s : Settings} {report : Report} (hrep : Reported h workDir t q r e s report) :
      Ends h workDir t q r e

theorem ensures_finish (stop : Stop) : stop.finish.Ensures r (· = stop.ending) := by
  cases stop <;> exact rfl

/-- A batch comes to the report of some attempts, or one of their issues cannot be sorted. -/
theorem unsortable_of_runOver {o : Batch.Options} {ts : List Tool} {f : Issue.Unsortable}
    (hend : (Batch.runOver h t o ts).MayEnd r (.error f)) :
    ∃ i : Issue, i.hasKeys h.collation = false ∧ f = ⟨i.path⟩ := by
  have hreport : (Batch.runOver h t o ts).Ensures r (∃ as, · = Batch.report h t o as) := by
    rw [Batch.runOver]
    split
    · exact ⟨[], rfl⟩
    · refine (Job.ensures_true _).bind fun _ _ => ?_
      refine (Job.ensures_true _).bind fun _ _ => ?_
      exact (Job.ensures_true _).bind fun as _ => ⟨as, rfl⟩
  obtain ⟨as, has⟩ := hend.of_ensures hreport
  rw [Batch.report, Issue.sorted] at has
  split at has
  · next i hi =>
    cases has
    exact ⟨i, by simpa using List.find?_some hi, rfl⟩
  · cases has

/-- A report is printed, or the program dies of it. -/
theorem ends_reported {s : Settings} {report : Report} (hmakes : Makes h workDir t q r s report) :
    Ends h workDir t q r (reported s q report) := by
  rw [reported]
  cases hfault : printFault? q report with
  | some f => exact .unprinted hmakes hfault
  | none => exact .reported { hmakes with handled := rfl, stdout := rfl, status := rfl }

/-- **Every run of the linters ends in one of four ways**: it is kept from being started, its
issues cannot be sorted, its report cannot be printed, or it has a report. -/
theorem ensures_lint : (lint h workDir t q).Ensures r (Ends h workDir t q r) := by
  rw [lint]
  split
  · next stop hstop =>
    exact (ensures_finish stop).mono fun e he => he ▸ .stopped (.settings hstop)
  · next s hs =>
    refine (Job.ensures_true _).bind fun _ _ => ?_
    rw [lintOver]
    split
    · next stop hstop =>
      exact (ensures_finish stop).mono fun e he => he ▸ .stopped (.files hs hstop)
    · next files hfiles =>
      refine (Job.ensures_mayEnd _).bind fun res hres => ?_
      cases res with
      | error f =>
        obtain ⟨i, hkeys, rfl⟩ := unsortable_of_runOver hres
        exact .unsortable hkeys
      | ok report =>
        refine (Job.ensures_true _).bind fun _ _ => ?_
        exact ends_reported ⟨hs, files, hfiles, hres⟩

theorem exitStatus_code_eq_one {report : Report} {failOn : Severity} :
    (report.exitStatus failOn).code = 1 ↔ report.allLintersFailed = false ∧
      ∃ i ∈ report.issues, i.severity.atLeast failOn = true := by
  rw [Report.exitStatus, Option.getD_none]
  cases report.allLintersFailed with
  | true => simp [ExitStatus.code]
  | false =>
    rw [if_neg Bool.false_ne_true]
    split
    · next hany => simpa [ExitStatus.code] using hany
    · next hany => simpa [ExitStatus.code] using hany

theorem exitStatus_code_le_two (report : Report) (failOn : Severity) :
    (report.exitStatus failOn).code ≤ 2 := by
  cases report.exitStatus failOn <;> decide

/-- A run of the linters ends with one of three statuses. -/
theorem Ends.status_le_two {e : Ending} (he : Ends h workDir t q r e) : e.status ≤ 2 := by
  cases he with
  | @stopped stop _ =>
    cases stop with
    | told m => exact Nat.le_refl 2
    | unhandled f => exact Nat.le_succ 1
  | unsortable => exact Nat.le_succ 1
  | unprinted => exact Nat.le_succ 1
  | reported hrep => exact hrep.status ▸ exitStatus_code_le_two _ _

/-- Unless the program died, the second status is that of issues found. -/
theorem Ends.status_eq_one_iff {e : Ending} (he : Ends h workDir t q r e) :
    (e.status = 1 ∧ e.unhandled = none) ↔ ∃ s report, Reported h workDir t q r e s report ∧
      report.allLintersFailed = false ∧ ∃ i ∈ report.issues, i.severity.atLeast s.failOn = true := by
  constructor
  · rintro ⟨hone, hhandled⟩
    cases he with
    | @stopped stop _ =>
      cases stop with
      | told m => cases hone
      | unhandled f => cases hhandled
    | unsortable => cases hhandled
    | unprinted => cases hhandled
    | reported hrep => exact ⟨_, _, hrep, exitStatus_code_eq_one.1 (hrep.status.symm.trans hone)⟩
  · rintro ⟨s, report, hrep, hissues⟩
    exact ⟨hrep.status.trans (exitStatus_code_eq_one.2 hissues), hrep.handled⟩

/-- The program dies with the second status and prints nothing. -/
theorem Ends.died_of_unhandled {e : Ending} (he : Ends h workDir t q r e) {f : Unhandled}
    (hf : e.unhandled = some f) : e.status = 1 ∧ e.stdout = "" ∧ (Escapes h workDir q f ∨
      (∃ i : Issue, i.hasKeys h.collation = false ∧ f = .unsortable ⟨i.path⟩) ∨
      ∃ s report, Makes h workDir t q r s report ∧ printFault? q report = some f) := by
  cases he with
  | @stopped stop hstop =>
    cases stop with
    | told m => cases hf
    | unhandled f' =>
      cases hf
      exact ⟨rfl, rfl, .inl (stopped_unhandled_iff.1 hstop)⟩
  | unsortable hkeys =>
    cases hf
    exact ⟨rfl, rfl, .inr (.inl ⟨_, hkeys, rfl⟩)⟩
  | unprinted hmakes hfault =>
    cases hf
    exact ⟨rfl, rfl, .inr (.inr ⟨_, _, hmakes, hfault⟩)⟩
  | reported hrep => cases hrep.handled.symm.trans hf

namespace Sample

/-- A folder to work in. -/
def folder : Path := ⟨1, ["bin"]⟩

/-- A request with a severity that there is none of. -/
def severe : LintRequest := { failOn := some "fatal" }

/-- A request with an exclusion that is no pattern. -/
def refused : LintRequest := { excludes := ["!"] }

theorem stopped_severe : Stopped (Batch.Sample.host .codePoints) folder severe
    (.told (Severity.unknownMessage "fatal")) := stopped_iff.2 (by decide +kernel)

theorem stopped_refused : Stopped (Batch.Sample.host .codePoints) folder refused
    (.unhandled (.badPattern "!")) := stopped_iff.2 (by decide +kernel)

end Sample

end Command
end LintMerge
