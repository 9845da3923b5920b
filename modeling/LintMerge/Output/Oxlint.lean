/-
# The output of oxlint

A table with a list of diagnostics. The first label of a diagnostic tells its
place, by a line, a column and a length on that line; a diagnostic that has none
cannot be located and is left out (`parse_oxlint`).
-/

import LintMerge.Output.Document

namespace LintMerge
namespace Output
namespace Oxlint

/-- The labels of severities; all others mean a warning. -/
def severities : List (String × Severity) := [("error", .error)]

/-- The issue of a diagnostic, if it can be located. -/
def issue? (root : Path) (diagnostic : Value) : Except Fault (Option Issue) :=
  let span := ((tables (diagnostic.field "labels")).head?.map (·.field "span")).getD .null
  match integer? (span.field "line"), integer? (span.field "column"),
      someText? (diagnostic.field "filename") with
  | some line, some column, some file => do
    let length := (integer? (span.field "length")).getD 0
    let url := someText? (diagnostic.field "url")
    let issue ← ofChecked (Issue.ofDraft
      { path := Path.key root file, line, column
        endLine := line
        endColumn := column + length
        severity := Severity.ofLabel severities .warning (diagnostic.field "severity")
        ruleId := ruleOf .oxlint (ruleText (diagnostic.field "code"))
        message := (text? (diagnostic.field "message")).getD ""
        source := .oxlint
        about := url.map fun u => ⟨some u, none, none⟩
        tornRule := torn? (diagnostic.field "code")
        torn := ⟨tornKey? root (diagnostic.field "filename"), torn? (diagnostic.field "message"),
          torn? (diagnostic.field "url")⟩ })
    return some issue
  | _, _, _ => .ok none

/-- The issues in the output of oxlint. -/
def parse (root : Path) (output : String) : Except Fault (List Issue) := do
  located (issue? root) (← diagnostics "oxlint" output)

end Oxlint
end Output
end LintMerge
