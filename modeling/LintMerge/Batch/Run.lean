/-
# Running a batch

A batch (`Orchestrator.run`) takes the tools of the linters that it asks for from a
registry. First every one is probed; those that do not answer are skipped. Then the
others are run, and what one does has no bearing on another: a fault that ends one
attempt is a failed run of that linter alone. The report lists the runs in the order
of the request and all issues in one order; without that order there is no report.

Probes may be carried out side by side (`select_available`), and so may runs (`run_linters`);
each is a job of its own.
-/

import LintMerge.Batch.Options
import LintMerge.Issue.Order
import LintMerge.Linter.Attempt
import LintMerge.Linter.Registry

namespace LintMerge
namespace Batch

/-- The tools that are built in for the linters asked for. -/
def Options.tools (o : Options) : List Tool := o.linters.map Linter.tool

/-- Whether a linter can be run; one whose probe fails cannot (`_probe_availability`). -/
def probe (h : Host) (o : Options) (t : Tool) : Job Event Bool :=
  (Attempt.available h t o.cwd (o.binOf t.linter.name)).bind fun
    | .ok b => .done b
    | .error _ => .tell (.detail s!"availability probe for {t.linter.name} raised") (.done false)

/-- What an attempt comes to that a fault may have ended. -/
def settle (l : Linter) : Except Attempt.Fault Attempt → Job Event Attempt
  | .ok a => .done a
  | .error f =>
    .tell (.detail s!"{l.name} raised while running") (.done (Attempt.failed l Version.unknown f.shown))

/-- Runs a linter; its start and its end are told (`_run_isolated`). -/
def attempt (h : Host) (o : Options) (t : Tool) : Job Event Attempt :=
  .tell (.started t.linter)
    ((Attempt.perform h t (o.invocationFor t.linter.name)).bind fun outcome =>
      (settle t.linter outcome).bind fun a => .tell (.finished a.run) (.done a))

/-- Tells that a linter is skipped. -/
def skip (l : Linter) : Job Event Unit :=
  .tell (.detail s!"{l.name} is not available; skipping") (.tell (.skipped l) (.done ()))

/-- The tools that answered their probes; the others are skipped (`Orchestrator.select_available`). -/
def select : List (Tool × Bool) → Job Event (List Tool)
  | [] => .done []
  | (t, true) :: rest => (select rest).bind fun ts => .done (t :: ts)
  | (t, false) :: rest => (skip t.linter).bind fun _ => select rest

/-- Runs linters (`run_linters`). -/
def attempts (h : Host) (o : Options) (ts : List Tool) : Job Event (List Attempt) :=
  Job.inTurn (ts.map (attempt h o))

/-- What a batch comes to: a report, unless its issues cannot be sorted. -/
abbrev Result := Except Issue.Unsortable Report

/-- The report of some attempts. -/
def report (h : Host) (timestamp : Stamp) (o : Options) (as : List Attempt) : Result :=
  (Issue.sorted h.collation (as.flatMap (·.issues))).map fun issues =>
    { timestamp
      cwd := o.cwd.text
      durationMs := 0
      linters := as.map (·.run)
      issues }

/-- Probes linters and runs those that answer. -/
def runLinters (h : Host) (timestamp : Stamp) (o : Options) (ts : List Tool) : Job Event Result :=
  (Job.inTurn (ts.map (probe h o))).bind fun flags =>
    (select (ts.zip flags)).bind fun available =>
      (attempts h o available).bind fun as => .done (report h timestamp o as)

/-- Tells that there is nothing to lint. -/
def runOverNothing (h : Host) (timestamp : Stamp) (o : Options) : Job Event Result :=
  .tell (.detail s!"no files to lint under {o.cwd.text}") (.done (report h timestamp o []))

/-- Runs linters over the files, if there are any; else no linter is even probed. -/
def runOver (h : Host) (timestamp : Stamp) (o : Options) (ts : List Tool) : Job Event Result :=
  if o.files.isEmpty then runOverNothing h timestamp o else runLinters h timestamp o ts

/-- The tools of a registry that a batch asks for, or the first name of none of them. A
batch without files asks for none. -/
def chosen (r : Registry) (o : Options) : Except String (List Tool) :=
  if o.files.isEmpty then .ok [] else r.orBuiltin.pick (o.linters.map Linter.name)

/-- Runs a batch with the tools of a registry. With files it fails with a name of none
of them. -/
def run (h : Host) (r : Registry) (timestamp : Stamp) (o : Options) : Except String (Job Event Result) :=
  (chosen r o).map (runOver h timestamp o)

end Batch
end LintMerge
