/-
# Events of a run

What happens on the way to a report: a linter is skipped, started, finished (`RunHooks`).
Details are for those who want to see more; notices are for everybody.
-/

import LintMerge.Report.Basic

namespace LintMerge

/-- Something that happens during a run. -/
inductive Event where
  /-- a detail, shown on request -/
  | detail (text : String)
  | warning (text : String)
  | notice (text : String)
  | skipped (l : Linter)
  | started (l : Linter)
  | finished (run : LinterRun)
  deriving DecidableEq, Repr

end LintMerge
