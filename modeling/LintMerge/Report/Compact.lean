/-
# Compact reports

A line for each issue, an empty line and a line that counts them; one line when
there are none (`render_compact`). The failures of linters are told apart from that.

Of the texts of an issue its path and its message are printed. Where one of them is
torn, nothing is printed, and the first half is told with the characters before it.
-/

import LintMerge.Console.Line
import LintMerge.Report.Basic

namespace LintMerge

/-- The style of a severity. -/
def Severity.style : Severity → Style
  | error => .red
  | warning => .yellow
  | info => .blue

/-- The line of an issue (`issue_line`). -/
def Issue.line (i : Issue) : Styled :=
  Styled.append {} s!"{i.path}:{i.span.line}:{i.span.column}" (some .cyan)
    |>.append " "
    |>.append i.severity.name (some i.severity.style)
    |>.append " "
    |>.append i.ruleId (some .dim)
    |>.append s!": {i.message}"

/-- The line that counts the issues. -/
def Summary.line (s : Summary) : Styled :=
  if s.total = 0 then .ofText "No issues found" (some .cyan)
  else
    Styled.ofText s!"{s.total} issues ("
      |>.append s!"{s.errors} errors" (if s.errors = 0 then none else some .red)
      |>.append ", "
      |>.append s!"{s.warnings} warnings" (if s.warnings = 0 then none else some .yellow)
      |>.append ")"

namespace Report

/-- A report as lines. -/
def compact (r : Report) : Styled :=
  .joinLines (r.issues.map Issue.line ++ (if r.issues.isEmpty then [] else [({} : Styled)]) ++ [r.summary.line])

/-- The first torn text that is printed of some issues, with what is printed before it. -/
def tornFrom (before : List Char) : List Issue → Option (List Char × Torn)
  | [] => none
  | i :: rest =>
    match i.torn.path, i.torn.message with
    | some t, _ => some (before, t)
    | none, some t =>
      some (before ++ s!"{i.path}:{i.span.line}:{i.span.column} {i.severity.name} {i.ruleId}: ".toList, t)
    | none, none => tornFrom (before ++ i.line.plain ++ ['\n']) rest

/-- The first halves of a torn text that is printed after some characters. -/
def printFault (before : List Char) (t : Torn) : Unencodable :=
  let gs := t.glyphs.filter fun
    | .char c => !Styled.isControl c
    | .half _ => true
  let lead := (gs.takeWhile (!·.isHalf)).map Glyph.masked
  { Torn.faultFrom 0 gs with start := (Console.shown (before ++ lead)).length }

/-- Why a report cannot be printed as lines, if it cannot. -/
def compactFault? (r : Report) : Option Unencodable :=
  (tornFrom [] r.issues).map fun (before, t) => printFault before t

/-- A line for each linter that failed (`failure_lines`). -/
def failureLines (r : Report) : List String :=
  (r.linters.filter (!·.success)).map fun run =>
    let cause := (run.error.filter (· ≠ "")).getD "unknown error"
    s!"{run.linter.name} failed: {cause}"

end Report
end LintMerge
