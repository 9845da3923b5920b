/-
# The command that shows what is installed

The folder is looked up, each linter is detected (`detect_all_linters`), and a table of them is
printed (`detect_command`).
-/

import LintMerge.Command.Ending
import LintMerge.Linter.Overview

namespace LintMerge
namespace Command

/-- The width of the console. -/
def consoleWidth : Nat := 400

/-- Lines, each ended. -/
def endedLines (ls : List (List Char)) : String := String.ofList (ls.flatMap fun l => l ++ ['\n'])

/-- Shows which linters are installed and configured. -/
def detect (h : Host) (workDir : Path) (cwd : Option String) : Job Event Ending :=
  match rootOf h workDir cwd with
  | .error stop => stop.finish
  | .ok root =>
    (Detection.detectAll h root).bind fun
      | .error f => .done (.ofUnhandled (.attempt f))
      | .ok ds =>
        match Detection.overview consoleWidth ds with
        | .error f => .done (.ofUnhandled (.markup f))
        | .ok lines => .done { status := ExitStatus.clean.code, stdout := endedLines lines }

end Command
end LintMerge
