/-
# Reports

A report holds what each linter did and all issues, in one order (`Report.assemble`). Its summary
counts the issues by severity and those that can be fixed (`Summary.from_issues`); it is never
stored beside them, and a written report whose summary differs from its issues is refused.
-/

import LintMerge.Issue.Basic
import LintMerge.Time.Stamp

namespace LintMerge

/-- What one linter did. -/
structure LinterRun where
  linter : Linter
  version : String := "unknown"
  success : Bool
  error : Option String := none
  warning : Option String := none
  durationMs : Nat := 0
  filesProcessed : Nat := 0
  deriving DecidableEq, Repr

namespace LinterRun

/-- The run that a value describes. -/
def check (form : Check.Form) (v : Value) : Checked LinterRun :=
  Check.record form "LinterRun" v fun es =>
    LinterRun.mk <$>
      Check.required es (.plain "name") (Check.named .notNamed Linter.name Linter.all) <*>
      Check.defaulted es (.plain "version") "unknown" Check.text <*>
      Check.required es (.plain "success") Check.truth <*>
      Check.defaulted es (.plain "error") none (Check.optional Check.text) <*>
      Check.defaulted es (.plain "warning") none (Check.optional Check.text) <*>
      ((Check.defaulted es ⟨"durationMs", "duration_ms"⟩ ⟨0, by omega⟩ (Check.atLeast 0)).map (·.1)) <*>
      ((Check.defaulted es ⟨"filesProcessed", "files_processed"⟩ ⟨0, by omega⟩ (Check.atLeast 0)).map
        (·.1))

/-- The fields of a run, null for what it lacks. -/
def entries (r : LinterRun) : List (String × Value) :=
  [("name", .text r.linter.name), ("version", .text r.version), ("success", .bool r.success),
    ("error", .ofText? r.error), ("warning", .ofText? r.warning), ("durationMs", .ofNat r.durationMs),
    ("filesProcessed", .ofNat r.filesProcessed)]

/-- A run as a value. -/
def toValue (r : LinterRun) : Value := .table r.entries

end LinterRun

/-- How many issues there are of each kind. -/
structure Summary where
  total : Nat := 0
  errors : Nat := 0
  warnings : Nat := 0
  info : Nat := 0
  fixable : Nat := 0
  deriving DecidableEq, Repr

namespace Summary

/-- The counts of some issues. -/
def ofIssues (issues : List Issue) : Summary where
  total := issues.length
  errors := issues.countP fun i => i.severity = .error
  warnings := issues.countP fun i => i.severity = .warning
  info := issues.countP fun i => i.severity = .info
  fixable := issues.countP Issue.fixable

/-- The summary that a value describes. -/
def check (form : Check.Form) (v : Value) : Checked Summary :=
  Check.record form "Summary" v fun es =>
    let count (name : String) :=
      (Check.defaulted es (.plain name) ⟨0, by omega⟩ (Check.atLeast 0)).map (·.1)
    Summary.mk <$> count "total" <*> count "errors" <*> count "warnings" <*> count "info" <*>
      count "fixable"

/-- The fields of a summary. -/
def entries (s : Summary) : List (String × Value) :=
  [("total", .ofNat s.total), ("errors", .ofNat s.errors), ("warnings", .ofNat s.warnings),
    ("info", .ofNat s.info), ("fixable", .ofNat s.fixable)]

/-- A summary as a value. -/
def toValue (s : Summary) : Value := .table s.entries

end Summary

/-- The outcome of a run of several linters over a working root. -/
structure Report where
  timestamp : Stamp
  cwd : String
  durationMs : Nat
  linters : List LinterRun
  issues : List Issue
  deriving DecidableEq, Repr

namespace Report

/-- The counts of the issues. -/
def summary (r : Report) : Summary := .ofIssues r.issues

/-- Whether a linter ran and all that ran failed. -/
def allLintersFailed (r : Report) : Bool := !r.linters.isEmpty && r.linters.all (!·.success)

/-- A report of given parts, if its summary counts its issues. -/
def withSummary (r : Report) (summary : Summary) : Checked Report :=
  if summary = r.summary then .ok r
  else .refuse (.broken
    s!"summary {summary.toValue.shown} does not match issues {r.summary.toValue.shown}")

/-- The report of some runs and issues, with a summary that counts the issues. -/
def assemble (timestamp cwd duration : Value) (linters : List LinterRun) (issues : List Issue) :
    Checked Report :=
  ((fun timestamp cwd (duration : { n : Nat // 0 ≤ n }) =>
      (⟨timestamp, cwd, duration.1, linters, issues⟩ : Report)) <$>
    (Stamp.check timestamp).under (.key "timestamp") <*>
    (Check.text cwd).under (.key "cwd") <*>
    (Check.atLeast 0 duration).under (.key "duration_ms")).andThen
      fun report => report.withSummary (.ofIssues issues)

/-- The report that a value describes. -/
def check (form : Check.Form) (v : Value) : Checked Report :=
  Check.record form "Report" v fun es =>
    ((fun timestamp cwd (duration : { n : Nat // 0 ≤ n }) linters issues summary =>
        ((⟨timestamp, cwd, duration.1, linters, issues⟩ : Report), summary)) <$>
      Check.required es (.plain "timestamp") Stamp.check <*>
      Check.required es (.plain "cwd") Check.text <*>
      Check.defaulted es ⟨"durationMs", "duration_ms"⟩ ⟨0, by omega⟩ (Check.atLeast 0) <*>
      Check.defaulted es (.plain "linters") [] (Check.sequence form (LinterRun.check form)) <*>
      Check.defaulted es (.plain "issues") [] (Check.sequence form (Issue.check form)) <*>
      Check.defaulted es (.plain "summary") {} (Summary.check form)).andThen
        fun (report, summary) => report.withSummary summary

/-- The fields of a report. -/
def entries (r : Report) : List (String × Value) :=
  [("timestamp", .text (String.ofList r.timestamp.text)), ("cwd", .text r.cwd),
    ("durationMs", .ofNat r.durationMs), ("linters", .list (r.linters.map LinterRun.toValue)),
    ("issues", .list (r.issues.map Issue.toValue)), ("summary", r.summary.toValue)]

/-- A report as a value. -/
def toValue (r : Report) : Value := .table r.entries

end Report
end LintMerge
