/-
# Narrowing a run to some patterns

The type checker looks at the whole project, and what it reports beyond the patterns of a request
is dropped at the very end: an attempt for some patterns is, step by step, the attempt for none,
whose issues are then filtered (`Attempt.perform_narrowed`). No program is asked anything else, and
nothing else of the attempt changes, however it ends.

So what the run tells does not depend on the patterns (`Attempt.run_of_patterns`). In particular
the warning that nothing was recognised is about the output: it is given when no line of it has the
form of a header, and not when the filter drops all issues.
-/

import LintMerge.Proofs.Batch.Containment
import LintMerge.Proofs.Output.Records

namespace LintMerge

namespace Job

variable {ε α β γ : Type}

/-- What goes on with the value of two jobs, one after the other, goes on with that of the second. -/
theorem bind_assoc (j : Job ε α) (f : α → Job ε β) (g : β → Job ε γ) :
    (j.bind f).bind g = j.bind fun a => (f a).bind g := by
  induction j with
  | done a => rfl
  | call c next ih => exact congrArg (Job.call c) (funext ih)
  | tell e rest ih => exact congrArg (Job.tell e) ih

@[simp] theorem value_call (answer : Call → Answer) (c : Call) (next : Answer → Job ε α) :
    (call c next).value answer = (next (answer c)).value answer := rfl

@[simp] theorem value_tell (answer : Call → Answer) (e : ε) (rest : Job ε α) :
    (tell e rest).value answer = rest.value answer := rfl

end Job

/-- Without patterns all issues are kept. -/
@[simp] theorem Issue.filter_of_nil (issues : List Issue) (root : Option Path) :
    Issue.filter issues [] root = issues := rfl

@[simp] theorem Issue.filter_nil (patterns : List String) (root : Option Path) :
    Issue.filter [] patterns root = [] :=
  List.sublist_nil.1 (Issue.filter_sublist [] patterns root)

namespace Output
namespace Tsc

/-- Lines say nothing when none of them has the form of a header. -/
theorem reading_nil_iff {lines : List (List Char)} :
    Reading lines [] ↔ ∀ line ∈ lines, ∀ h : Header, ¬ h.Fits line := by
  induction lines with
  | nil => exact iff_of_true .nil fun _ h => absurd h List.not_mem_nil
  | cons line rest ih =>
    rw [List.forall_mem_cons, ← ih]
    constructor
    · rintro (_ | _ | ⟨hline, hrest⟩)
      exact ⟨hline, hrest⟩
    · rintro ⟨hline, hrest⟩
      exact .other hline hrest

/-- **No issue is found where no line has the form of a header**, and only there. -/
theorem eq_nil_iff_of_parse {root : Path} {output : String} {issues : List Issue}
    (h : parse root output = .ok issues) :
    issues = [] ↔ ∀ line ∈ Text.lines output.toList, ∀ h : Header, ¬ h.Fits line := by
  have hlength : (records (Text.lines output.toList)).length = issues.length :=
    (Faulty.mapM_eq_ok.1 h).length_eq
  rw [← reading_nil_iff]
  constructor
  · rintro rfl
    obtain ⟨found, hfound⟩ := exists_reading (Text.lines output.toList)
    rw [hfound.records_eq, List.length_map, List.length_nil, List.length_eq_zero_iff] at hlength
    exact hlength ▸ hfound
  · intro hnone
    rw [hnone.records_eq, List.map_nil, List.length_nil] at hlength
    exact List.length_eq_zero_iff.1 hlength.symm

end Tsc
end Output

namespace Attempt

variable {h : Host} {l : Linter} {i : Invocation}

/-- An attempt of which the issues are narrowed to some patterns, where the linter looks at the
whole project. -/
def narrowed (l : Linter) (cwd : Path) (patterns : List String) (a : Attempt) : Attempt :=
  { a with issues := if l.isProjectWide then Issue.filter a.issues patterns (some cwd) else a.issues }

/-- A job of an attempt that narrows it at the end. -/
def narrowing (l : Linter) (cwd : Path) (patterns : List String) (j : Work Attempt) : Work Attempt :=
  j.bind fun x => .done (x.map (narrowed l cwd patterns))

theorem narrowing_failing (l : Linter) (cwd : Path) (patterns : List String) (version message : String) :
    narrowing l cwd patterns (failing l version message) = failing l version message := by
  simp [narrowing, failing, Job.bind, Except.map, narrowed, failed]

theorem narrowed_succeeded (l : Linter) (i : Invocation) (patterns : List String) (version : String)
    (warning : Option String) (issues : List Issue) :
    narrowed l i.cwd patterns (succeeded l { i with patterns := [] } version warning issues) =
      succeeded l { i with patterns } version warning issues := by
  cases hwide : l.isProjectWide <;> simp [narrowed, succeeded, hwide]

/-- What an answer comes to is narrowed, whatever it is. -/
theorem conclude_narrowed (l : Linter) (i : Invocation) (patterns : List String) (version : String)
    (o : Outcome) : conclude l { i with patterns } version o =
      narrowing l i.cwd patterns (conclude l { i with patterns := [] } version o) := by
  rw [conclude_tool, conclude_tool]
  split
  · rw [narrowing_failing]
  · split
    · rw [narrowing_failing]
    · rw [read_tool, read_tool]
      dsimp only
      split
      · rfl
      · rw [narrowing_failing]
      · rw [narrowing_failing]
      · rw [accept_tool, accept_tool]
        split
        · rw [narrowing, Job.bind, Job.bind, Except.map, narrowed_succeeded]
        · rw [narrowing, Job.bind, Except.map, narrowed_succeeded]

/-- **Patterns only narrow an attempt.** Whatever is answered, and however the attempt ends, it is
the attempt without patterns, of which the issues are filtered at the end. -/
theorem perform_narrowed (h : Host) (l : Linter) (i : Invocation) (patterns : List String) :
    perform h l { i with patterns } =
      narrowing l i.cwd patterns (perform h l { i with patterns := [] }) := by
  rw [perform_tool, perform_tool]
  dsimp only
  split
  · rfl
  · rw [narrowing_failing]
  · next p _ =>
    rw [narrowing, Job.bind_assoc]
    refine congrArg _ (funext fun told => ?_)
    cases told with
    | error f => rfl
    | ok answer =>
      -- the call is the same one, and what it is answered is concluded alike
      refine congrArg (Job.tell _) (congrArg (Job.call _) (funext fun a => ?_))
      cases a with
      | error f => rfl
      | ok o => exact conclude_narrowed l i patterns _ o

/-- What the type checker is warned of: an exit code other than zero, and nothing found. -/
theorem isSome_doubt?_iff {o : Outcome} {issues : List Issue} :
    (Linter.tsc.doubt? o issues).isSome ↔ o.exitCode ≠ 0 ∧ issues = [] := by
  simp [Linter.doubt?]

/-- What an answer comes to that is read without a fault. -/
theorem value_conclude {answer : Call → Answer} {version : String} {o : Outcome} {found : List Issue}
    (htime : o.timedOut = false) (hworked : l.failure? o = none)
    (hparse : l.parse i.cwd (output l o) = .ok found) :
    (conclude l i version o).value answer = .ok (succeeded l i version (l.doubt? o found) found) := by
  rw [conclude_tool, htime, if_neg Bool.false_ne_true, hworked]
  dsimp only
  rw [read_tool, hparse]
  dsimp only
  rw [accept_tool]
  split
  · next hdoubt => rw [hdoubt, Job.value_tell, Job.value_done]
  · next hdoubt => rw [hdoubt, Job.value_done]

/-- **Narrowing a run of the type checker only filters.** Patterns decide on nothing but the issues
that are kept of an attempt at its end, whatever is answered. Where its program is there, has told
its version and has printed something that is read without a fault, the run is one for all
patterns: it has succeeded, and it is warned of exactly when the exit code is not zero and no line
of what was printed has the form of a header. The issues are those of both streams, filtered. -/
theorem run_of_patterns (h : Host) (i : Invocation) (p : Program) (answer : Call → Answer) (o : Outcome)
    (found : List Issue) (hlocate : locate h Linter.tsc i.cwd i.bin = .ok (some p))
    (hrun : answer (callOf .tsc i p) = .ok o) (htime : o.timedOut = false)
    (hworked : Linter.tsc.failure? o = none)
    (hparse : Output.Tsc.parse i.cwd (o.stdout ++ "\n" ++ o.stderr) = .ok found) :
    (∀ patterns, perform h Linter.tsc { i with patterns } =
      narrowing .tsc i.cwd patterns (perform h Linter.tsc { i with patterns := [] })) ∧
    ∀ told, (probe Linter.tsc i.cwd p).value answer = .ok told →
      ∃ run : LinterRun, run.linter = .tsc ∧ run.version = versionOf Linter.tsc p told ∧
        run.success = true ∧ run.error = none ∧ run.filesProcessed = i.files.length ∧
        (run.warning.isSome ↔ o.exitCode ≠ 0 ∧
          ∀ line ∈ Text.lines (o.stdout ++ "\n" ++ o.stderr).toList,
            ∀ header : Output.Tsc.Header, ¬ header.Fits line) ∧
        ∀ patterns, (perform h Linter.tsc { i with patterns }).value answer =
          .ok { run, issues := Issue.filter found patterns (some i.cwd) } := by
  refine ⟨perform_narrowed h .tsc i, fun told htold => ?_⟩
  refine ⟨(succeeded Linter.tsc i (versionOf Linter.tsc p told) (Linter.tsc.doubt? o found) found).run,
    rfl, rfl, rfl, rfl, rfl, ?_, fun patterns => ?_⟩
  · rw [← Output.Tsc.eq_nil_iff_of_parse hparse]
    exact isSome_doubt?_iff
  · rw [perform_tool]
    dsimp only
    rw [hlocate]
    dsimp only
    have hcall : callOf .tsc { i with patterns } p = callOf .tsc i p := rfl
    rw [Job.value_bind, htold]
    dsimp only
    rw [launch_tool, Job.value_tell, Job.value_call, hcall, hrun]
    exact value_conclude htime hworked hparse

namespace Sample

/-- The type checker, started in a project. -/
def typeCheck : Invocation := { cwd := ⟨1, ["project"]⟩ }

/-- The program of the type checker. -/
def checker : Program := ⟨"tsc", "/bin/tsc", .searched⟩

/-- The type checker ends with one record on the first stream. -/
def checked : Outcome where
  stdout := "a.ts(3,14): error TS2322: A is no B.\n  C is missing.\nFound 1 error."
  exitCode := 2

end Sample

/-- The hypotheses of `run_of_patterns` hold together: the one issue is dropped, and the run is the
same and warned of nothing. -/
theorem run_of_patterns_elsewhere :
    locate (Batch.Sample.host .codePoints) Linter.tsc Sample.typeCheck.cwd Sample.typeCheck.bin =
      .ok (some Sample.checker) ∧
    Linter.tsc.failure? Sample.checked = none ∧
    Output.Tsc.parse Sample.typeCheck.cwd (Sample.checked.stdout ++ "\n" ++ Sample.checked.stderr) =
      .ok [Output.Tsc.Sample.finding.issue Sample.typeCheck.cwd] ∧
    ∃ run : LinterRun, run.success = true ∧ run.warning = none ∧
      (perform (Batch.Sample.host .codePoints) Linter.tsc { Sample.typeCheck with patterns := ["lib"] }).value
        (fun _ => .ok Sample.checked) = .ok { run, issues := [] } ∧
      (perform (Batch.Sample.host .codePoints) Linter.tsc { Sample.typeCheck with patterns := [] }).value
        (fun _ => .ok Sample.checked) =
          .ok { run, issues := [Output.Tsc.Sample.finding.issue Sample.typeCheck.cwd] } := by
  have hlocate : locate (Batch.Sample.host .codePoints) Linter.tsc Sample.typeCheck.cwd
      Sample.typeCheck.bin = .ok (some Sample.checker) := by decide +kernel
  have hworked : Linter.tsc.failure? Sample.checked = none := by decide
  have htext : Sample.checked.stdout ++ "\n" ++ Sample.checked.stderr = Output.Tsc.Sample.output := by
    decide +kernel
  have hparse : Output.Tsc.parse Sample.typeCheck.cwd
      (Sample.checked.stdout ++ "\n" ++ Sample.checked.stderr) =
        .ok [Output.Tsc.Sample.finding.issue Sample.typeCheck.cwd] := by
    rw [htext]
    exact Output.Tsc.Sample.reading_output.parse_eq Output.Tsc.Sample.short_finding _
  have hdropped : Issue.filter [Output.Tsc.Sample.finding.issue Sample.typeCheck.cwd] ["lib"]
      (some Sample.typeCheck.cwd) = [] := by decide +kernel
  obtain ⟨run, -, -, hsuccess, -, -, hwarning, hvalue⟩ :=
    (run_of_patterns _ Sample.typeCheck Sample.checker (fun _ => .ok Sample.checked) Sample.checked
      _ hlocate rfl rfl hworked hparse).2 _ rfl
  refine ⟨hlocate, hworked, hparse, run, hsuccess, ?_, hdropped ▸ hvalue ["lib"], hvalue []⟩
  rw [← Output.Tsc.eq_nil_iff_of_parse hparse] at hwarning
  exact Option.not_isSome_iff_eq_none.1 fun h => List.cons_ne_nil _ _ (hwarning.1 h).2

end Attempt
end LintMerge
