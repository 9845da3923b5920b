/-
# What the status of a run depends on

The status of a run is found by a look at its issues, which stops at the first that reaches the
threshold. The summary of the run tells the same: it counts the issues that reach a threshold
(`Summary.reaching_ofIssues`), as the severities are in one order and each issue has one of them.
So the status is told by whether the linters failed and by three numbers of the summary
(`Report.exitStatus_eq`), and the order of the linters and of the issues has no part in it.

An issue that reaches a threshold reaches every lower one, so a status that tells of issues stays
when the threshold is lowered or issues are added (`Report.exitStatus_of_subset`).
-/

import LintMerge.Proofs.Report.Counts
import LintMerge.Report.ExitStatus

namespace LintMerge

namespace Severity

variable {s threshold threshold' : Severity}

theorem atLeast_iff : s.atLeast threshold = true ↔ threshold.rank ≤ s.rank := decide_eq_true_iff

/-- What reaches a threshold reaches a lower one. -/
theorem atLeast_of_rank_le (hle : threshold'.rank ≤ threshold.rank) (h : s.atLeast threshold = true) :
    s.atLeast threshold' = true :=
  atLeast_iff.2 (Nat.le_trans hle (atLeast_iff.1 h))

end Severity

namespace Summary

/-- How many of the issues that a summary counts reach a threshold. -/
def reaching (s : Summary) : Severity → Nat
  | .error => s.errors
  | .warning => s.errors + s.warnings
  | .info => s.total

/-- **The summary of some issues** counts those that reach a threshold. -/
theorem reaching_ofIssues (issues : List Issue) (threshold : Severity) :
    (ofIssues issues).reaching threshold = issues.countP fun i => i.severity.atLeast threshold := by
  induction issues with
  | nil => cases threshold <;> rfl
  | cons i issues ih =>
    -- one more issue adds the same to both sides, whatever its severity
    rw [List.countP_cons, ← ih]
    cases threshold <;> cases h : i.severity <;>
      simp [reaching, ofIssues, List.countP_cons, h, Severity.atLeast, Severity.rank] <;> omega

end Summary

namespace Report

variable {r r' : Report} {failOn failOn' : Severity} {allFailed : Option Bool}

/-- A linter ran, and every one that ran failed. -/
def AllFailed (r : Report) : Prop := r.linters ≠ [] ∧ ∀ l ∈ r.linters, l.success = false

theorem allLintersFailed_iff : r.allLintersFailed = true ↔ r.AllFailed := by
  rw [allLintersFailed, AllFailed, Bool.and_eq_true, Bool.not_eq_true', List.isEmpty_eq_false_iff,
    List.all_eq_true]
  simp only [Bool.not_eq_true']

/-- Some issue reaches a threshold when the summary counts one. -/
theorem any_atLeast_iff : (r.issues.any fun i => i.severity.atLeast failOn) = true ↔
    0 < r.summary.reaching failOn := by
  rw [summary, Summary.reaching_ofIssues, List.countP_pos_iff, List.any_eq_true]

/-- **The status** by what the summary counts. -/
theorem exitStatus_eq (r : Report) (failOn : Severity) (allFailed : Option Bool) :
    r.exitStatus failOn allFailed =
      if allFailed.getD r.allLintersFailed then .toolError
      else if 0 < r.summary.reaching failOn then .issuesFound
      else .clean := by
  simp only [exitStatus, any_atLeast_iff]

theorem exitStatus_eq_toolError_iff :
    r.exitStatus failOn allFailed = .toolError ↔ allFailed.getD r.allLintersFailed = true := by
  rw [exitStatus_eq]
  split
  · next h => simp [h]
  · next h => split <;> simp [h]

theorem exitStatus_eq_issuesFound_iff : r.exitStatus failOn allFailed = .issuesFound ↔
    ¬ allFailed.getD r.allLintersFailed = true ∧ 0 < r.summary.reaching failOn := by
  rw [exitStatus_eq]
  split
  · next h => simp [h]
  · next h => split <;> simp [*]

theorem exitStatus_eq_clean_iff : r.exitStatus failOn allFailed = .clean ↔
    ¬ allFailed.getD r.allLintersFailed = true ∧ r.summary.reaching failOn = 0 := by
  rw [exitStatus_eq]
  split
  · next h => simp [h]
  · next h => split <;> simp [h] <;> omega

/-- Whether all failed is told by what there is among the outcomes of the linters. -/
theorem allLintersFailed_iff_mem : r.allLintersFailed = true ↔
    false ∈ r.linters.map (·.success) ∧ true ∉ r.linters.map (·.success) := by
  rw [allLintersFailed_iff, AllFailed, List.mem_map, List.mem_map]
  constructor
  · rintro ⟨hne, hall⟩
    obtain ⟨l, hl⟩ := List.exists_mem_of_ne_nil _ hne
    refine ⟨⟨l, hl, hall l hl⟩, ?_⟩
    rintro ⟨l', hl', hsuccess⟩
    rw [hall l' hl'] at hsuccess
    cases hsuccess
  · rintro ⟨⟨l, hl, -⟩, hnone⟩
    exact ⟨List.ne_nil_of_mem hl, fun l' hl' => Bool.eq_false_iff.2 fun hsuccess => hnone ⟨l', hl', hsuccess⟩⟩

/-- **The status depends on what the linters came to and on the summary** alone. -/
theorem exitStatus_congr
    (hlinters : ∀ success, success ∈ r.linters.map (·.success) ↔ success ∈ r'.linters.map (·.success))
    (hsummary : r.summary = r'.summary) : r.exitStatus failOn allFailed = r'.exitStatus failOn allFailed := by
  have hall : r.allLintersFailed = r'.allLintersFailed := by
    rw [Bool.eq_iff_iff, allLintersFailed_iff_mem, allLintersFailed_iff_mem, hlinters, hlinters]
  rw [exitStatus_eq, exitStatus_eq, hall, hsummary]

/-- **Issues stay found** when there are more of them or the threshold is lower. -/
theorem exitStatus_of_subset (hlinters : r.linters = r'.linters) (hissues : r.issues ⊆ r'.issues)
    (hle : failOn'.rank ≤ failOn.rank) (h : r.exitStatus failOn allFailed = .issuesFound) :
    r'.exitStatus failOn' allFailed = .issuesFound := by
  rw [exitStatus_eq_issuesFound_iff, ← any_atLeast_iff, List.any_eq_true] at h ⊢
  obtain ⟨hfailed, i, hi, hreaches⟩ := h
  refine ⟨?_, i, hissues hi, Severity.atLeast_of_rank_le hle hreaches⟩
  rwa [allLintersFailed, ← hlinters]

/-- **The status of a run** is told by what its linters came to and by its summary. When a linter ran
and all that ran failed it is an error of the tools; else issues are found when the summary counts
one that reaches the threshold. What overrides whether all failed takes the place of that alone. So
the order of the linters and of the issues does not matter, and issues that are found stay found
when the threshold is lowered or more issues are added. -/
theorem exitStatus_summary (r : Report) (failOn : Severity) :
    (r.exitStatus failOn = .toolError ↔ r.AllFailed) ∧
    (r.exitStatus failOn = .issuesFound ↔ ¬ r.AllFailed ∧ 0 < r.summary.reaching failOn) ∧
    (r.exitStatus failOn = .clean ↔ ¬ r.AllFailed ∧ r.summary.reaching failOn = 0) ∧
    (∀ allFailed : Bool, r.exitStatus failOn (some allFailed) =
      if allFailed then .toolError else if 0 < r.summary.reaching failOn then .issuesFound else .clean) ∧
    (∀ (r' : Report) (allFailed : Option Bool),
      (∀ success, success ∈ r.linters.map (·.success) ↔ success ∈ r'.linters.map (·.success)) →
      r.summary = r'.summary → r.exitStatus failOn allFailed = r'.exitStatus failOn allFailed) ∧
    (∀ (r' : Report) (allFailed : Option Bool), r.linters.Perm r'.linters → r.issues.Perm r'.issues →
      r.exitStatus failOn allFailed = r'.exitStatus failOn allFailed) ∧
    ∀ (r' : Report) (failOn' : Severity) (allFailed : Option Bool), r.linters = r'.linters →
      r.issues ⊆ r'.issues → failOn'.rank ≤ failOn.rank → r.exitStatus failOn allFailed = .issuesFound →
      r'.exitStatus failOn' allFailed = .issuesFound := by
  refine ⟨?toolError, ?issuesFound, ?clean, fun allFailed => ?overridden, fun r' allFailed => exitStatus_congr,
    fun r' allFailed hlinters hissues => ?perm, fun r' failOn' allFailed => exitStatus_of_subset⟩
  case toolError => rw [exitStatus_eq_toolError_iff, Option.getD_none, allLintersFailed_iff]
  case issuesFound => rw [exitStatus_eq_issuesFound_iff, Option.getD_none, allLintersFailed_iff]
  case clean => rw [exitStatus_eq_clean_iff, Option.getD_none, allLintersFailed_iff]
  case overridden => exact exitStatus_eq r failOn (some allFailed)
  case perm =>
    exact exitStatus_congr (fun success => (hlinters.map _).mem_iff) (Summary.ofIssues_of_perm hissues)

namespace Sample

/-- An issue in a script. -/
def noted (severity : Severity) : Issue where
  path := "lib/run.mjs"
  span := ⟨12, 8, 12, 11, by decide, by decide, by decide, by decide⟩
  severity
  ruleId := "oxlint/no-unused-vars"
  message := "'old' is never used."
  source := .oxlint
  fix := none
  about := none
  isPath := by unfold Issue.IsPath; decide
  ruleId_ne := by decide

/-- A report of a linter that ended well and one that failed. -/
def mixed (linters : List LinterRun) (issues : List Issue) : Report where
  timestamp := ⟨2025, 3, 4, 5, 6, 7, 0, some 0⟩
  cwd := "/work/project"
  durationMs := 12
  linters
  issues

/-- The runs of the two linters. -/
def runs : List LinterRun :=
  [{ linter := .oxlint, success := true }, { linter := .tsc, success := false, error := some "timed out" }]

end Sample

/-- The hypotheses of `exitStatus_summary` hold together. Of a warning and an information one issue
reaches the threshold, in whatever order the linters and the issues are, and it does so under a lower
threshold with one issue more. -/
theorem exitStatus_summary_mixed :
    Sample.runs.Perm Sample.runs.reverse ∧
      (Sample.mixed Sample.runs [Sample.noted .warning, Sample.noted .info]).summary.reaching .warning = 1 ∧
      (Sample.mixed Sample.runs [Sample.noted .warning, Sample.noted .info]).exitStatus .warning =
        .issuesFound ∧
      (Sample.mixed Sample.runs.reverse [Sample.noted .info, Sample.noted .warning]).exitStatus .warning =
        .issuesFound ∧
      (Sample.mixed Sample.runs [Sample.noted .info, Sample.noted .warning, Sample.noted .info]).exitStatus
        .info = .issuesFound := by
  obtain ⟨-, hfound, -, -, -, hperm, hmore⟩ :=
    exitStatus_summary (Sample.mixed Sample.runs [Sample.noted .warning, Sample.noted .info]) .warning
  have hlinters : Sample.runs.Perm Sample.runs.reverse := (List.reverse_perm _).symm
  have hissues : [Sample.noted .warning, Sample.noted .info].Perm
      [Sample.noted .info, Sample.noted .warning] := .swap _ _ _
  have hone : (Sample.mixed Sample.runs [Sample.noted .warning, Sample.noted .info]).summary.reaching
      .warning = 1 := by decide
  have hstatus := hfound.2 ⟨by unfold AllFailed; decide, by rw [hone]; decide⟩
  have hswapped := hperm (Sample.mixed Sample.runs.reverse [Sample.noted .info, Sample.noted .warning]) none
    hlinters hissues
  exact ⟨hlinters, hone, hstatus, hswapped.symm.trans hstatus,
    hmore (Sample.mixed Sample.runs [Sample.noted .info, Sample.noted .warning, Sample.noted .info]) .info none
      rfl (by decide) (by decide) hstatus⟩

end Report
end LintMerge
