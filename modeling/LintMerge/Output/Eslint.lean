/-
# The output of eslint

A list of files, each with its messages. A message may carry a fix, or suggestions
of which the first may carry one; the fix replaces one range (`parse_eslint`).
-/

import LintMerge.Output.Document

namespace LintMerge
namespace Output
namespace Eslint

/-- The level of errors; messages of all other levels are warnings. -/
def errorLevel : Int := 2

/-- The fix of a message, else that of its first suggestion. -/
def fixTable? (message : Value) : Option Value :=
  let own := message.field "fix"
  if isTable own then some own
  else ((tables (message.field "suggestions")).head?.map (·.field "fix")).filter isTable

/-- The fix of a message. -/
def fix? (message : Value) : Except Fault (Option Fix) :=
  match fixTable? message with
  | none => .ok none
  | some v =>
    match pair? (v.field "range") with
    | none => .ok none
    | some (start, stop) => do
      let text := (text? (v.field "text")).getD ""
      let r ← ofChecked (Replacement.make start stop text)
      return some ⟨[r]⟩

/-- The text of the fix of a message, if halves of pairs stand in it. -/
def tornFix? (message : Value) : Option Torn := do
  let v ← fixTable? message
  let _ ← pair? (v.field "range")
  torn? (v.field "text")

/-- The issue of a message. -/
def issue (path : String) (tornPath : Option Torn) (message : Value) : Except Fault Issue := do
  let line := integerOr 1 (message.field "line")
  let column := integerOr 1 (message.field "column")
  let fix ← fix? message
  ofChecked (Issue.ofDraft
    { path, line, column
      endLine := integerOr line (message.field "endLine")
      endColumn := integerOr column (message.field "endColumn")
      severity := if integer? (message.field "severity") = some errorLevel then .error else .warning
      ruleId := ruleOf .eslint (ruleText (message.field "ruleId"))
      message := (text? (message.field "message")).getD ""
      source := .eslint
      fix
      tornRule := torn? (message.field "ruleId")
      torn := ⟨tornPath, torn? (message.field "message"), tornFix? message⟩ })

/-- The issues of a file. -/
def fileIssues (root : Path) (entry : Value) : Except Fault (List Issue) := do
  let _ ← table "eslint" "file result" entry
  match someText? (entry.field "filePath") with
  | none => .error (.malformed "eslint" "file result is missing 'filePath'")
  | some file =>
    let tornPath := tornKey? root (entry.field "filePath")
    (tables (entry.field "messages")).mapM (issue (Path.key root file) tornPath)

/-- The issues in the output of eslint. -/
def parse (root : Path) (output : String) : Except Fault (List Issue) := do
  match ← load "eslint" output with
  | none => return []
  | some document =>
    let entries ← list "eslint" "report" document
    return (← entries.mapM (fileIssues root)).flatten

end Eslint
end Output
end LintMerge
