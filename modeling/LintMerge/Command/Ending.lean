/-
# How a command ends

A command ends with a status and with what it printed. What goes wrong is told and
ends it with the status of a tool error (`_abort`), but for a few faults that nothing
handles.
-/

import LintMerge.Config.Settings
import LintMerge.Console.Markup
import LintMerge.Issue.Order
import LintMerge.Linter.Attempt
import LintMerge.Report.ExitStatus

namespace LintMerge
namespace Command

/-- A fault that nothing handles. -/
inductive Unhandled where
  | attempt (f : Attempt.Fault)
  | badPattern (line : String)
  | tooLong (p : Path)
  | linkLoop (p : Path)
  | unsortable (f : Issue.Unsortable)
  | markup (f : Console.Markup.Fault)
  /-- a report with a torn text, written as a document -/
  | unwritable (f : Unencodable)
  /-- a report with a torn text, printed as lines -/
  | unprintable (f : Unencodable)
  deriving DecidableEq, Repr

/-- What is said of a fault. -/
def Unhandled.message : Unhandled → String
  | attempt (.call f) => f.message
  | attempt f => f.shown
  | badPattern line => Glob.Spec.invalidMessage line
  | tooLong p => Tree.tooLongMessage p
  | linkLoop p => s!"Symlink loop from " ++ quoted p.text
  | unsortable f => f.message
  | markup f => f.message
  | unwritable f => "Error serializing to JSON: UnicodeEncodeError: " ++ f.message
  | unprintable f =>
    f.message ++ "\n*** You may need to add PYTHONIOENCODING=utf-8 to your environment ***"

/-- The end of a command. -/
structure Ending where
  status : Nat
  stdout : String := ""
  /-- the tree, if it was changed -/
  tree : Option Tree := none
  unhandled : Option Unhandled := none

namespace Ending

/-- The status of a program that a fault stopped. -/
def crashStatus : Nat := 1

/-- The end by a fault that nothing handles. -/
def ofUnhandled (f : Unhandled) : Ending := { status := crashStatus, unhandled := some f }

end Ending

/-- Why a command stops before its end. -/
inductive Stop where
  /-- a problem that the user is told of -/
  | told (message : String)
  | unhandled (f : Unhandled)
  deriving DecidableEq, Repr

/-- Ends a command that was stopped. -/
def Stop.finish : Stop → Job Event Ending
  | told message => .tell (.notice message) (.done { status := ExitStatus.toolError.code })
  | unhandled f => .done (.ofUnhandled f)

/-- The folder that a command works in, with links followed. -/
def rootOf (h : Host) (workDir : Path) (cwd : Option String) : Except Stop Path :=
  let asked := match cwd with
    | some s => workDir.join (Path.ofText s)
    | none => workDir
  let root := h.tree.real asked
  match h.tree.trail asked with
  | .error .tooManyLinks => .error (.unhandled (.linkLoop root))
  | .error .tooLong => .error (.unhandled (.tooLong root))
  | _ =>
    if h.tree.isFolder root then .ok root
    else .error (.told s!"Working directory not found: {root.text}")

end Command
end LintMerge
