/-
# What a user sees of a run

Events become lines on the stream of errors. Details are shown on request; a quiet
run shows warnings and notices only (`configure_logging`).
-/

import LintMerge.Command.Detect
import LintMerge.Command.Init
import LintMerge.Command.Lint
import LintMerge.Console.Progress

namespace LintMerge
namespace Command

/-- The cells of the level in front of a logged text, and of the space after it. -/
def levelWidth : Nat := 9

/-- The lines of a logged text. -/
def logLines (level text : String) : List (List Char) :=
  match (Console.wrap (consoleWidth - levelWidth) true (Styled.printable text.toList)).map Text.trimEnd with
  | [] => []
  | first :: rest =>
    let start := level.toList ++ List.replicate (levelWidth - level.length) ' '
    (start ++ first) :: rest.map (List.replicate levelWidth ' ' ++ ·)

/-- A line as it is written, without the character that ends it. -/
def noticeLines (text : String) : List (List Char) := Text.splitOn '\n' (Console.shown text.toList)

/-- The lines of an event. -/
def eventLines (quiet verbose : Bool) : Event → List (List Char)
  | .detail text => if verbose then logLines "DEBUG" text else []
  | .warning text => logLines "WARNING" text
  | .notice text => noticeLines (Progress.lead ++ text)
  | e => ((Progress.start false quiet).note e).written.flatMap noticeLines

/-- The box around a text of one line. -/
def box (title text : String) : List (List Char) :=
  let top := "╭─ ".toList ++ title.toList ++ [' ']
  let inner := consoleWidth - 4
  [top ++ List.replicate (consoleWidth - top.length - 1) '─' ++ ['╮'],
   "│ ".toList ++ text.toList ++ List.replicate (inner - text.length) ' ' ++ " │".toList,
   '╰' :: List.replicate (consoleWidth - 2) '─' ++ ['╯']]

/-- What is shown of arguments that cannot be understood. -/
def usageLines : UsageFault → List (List Char)
  | .misuse => []
  | .valueMissing option => box "Error" s!"Option '{option}' requires an argument."
  | .valueRefused option => box "Error" s!"Option '{option}' does not take a value."

/-- The status of arguments that cannot be understood. -/
def usageStatus : Nat := 2

/-- The version of this program. -/
def versionText : String := "lintmesh 0.1.0\n"

/-- What a request does. -/
def Request.job (h : Host) (workDir : Path) (timestamp : Stamp) : Request → Job Event Ending
  | .version => .done { status := ExitStatus.clean.code, stdout := versionText }
  | .help command => .done { status := ExitStatus.clean.code, stdout := h.help command }
  | .lint r => Command.lint h workDir timestamp r
  | .init force cwd => Command.init h workDir force cwd
  | .detect cwd => Command.detect h workDir cwd

/-- The lines that a request shows of its events. -/
def Request.lines (events : List Event) : Request → List (List Char)
  | .lint r => events.flatMap (eventLines r.quiet r.verbose)
  | _ => events.flatMap (eventLines false false)

/-- All that a command line leads to. -/
structure Result where
  ending : Ending
  stderr : List (List Char)
  calls : List Call

/-- Carries out a request, with what programs answer. -/
def Request.carryOut (h : Host) (workDir : Path) (timestamp : Stamp) (answer : Call → Answer)
    (r : Request) : Result :=
  let (ending, steps) := (r.job h workDir timestamp).run answer
  { ending, stderr := r.lines (Job.events steps), calls := Job.calls steps }

end Command
end LintMerge
