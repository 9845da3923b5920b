/-
# Exit status

A run of which every linter failed is an error of the tools, whatever issues it
found. Else the status tells whether an issue reaches the threshold
(`compute_exit_code`).
-/

import LintMerge.Report.Basic

namespace LintMerge

/-- How a run ended. -/
inductive ExitStatus where
  | clean
  | issuesFound
  | toolError
  deriving DecidableEq, Repr

namespace ExitStatus

/-- The number of a status. -/
def code : ExitStatus → Nat
  | clean => 0
  | issuesFound => 1
  | toolError => 2

end ExitStatus

/-- The status of a report under a threshold; `allFailed`, if given, overrides whether
every linter failed. -/
def Report.exitStatus (r : Report) (failOn : Severity) (allFailed : Option Bool := none) :
    ExitStatus :=
  if allFailed.getD r.allLintersFailed then .toolError
  else if r.issues.any fun i => i.severity.atLeast failOn then .issuesFound
  else .clean

end LintMerge
