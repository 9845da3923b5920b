/-
# Severities

An issue is an error, a warning or an information, in falling order. A severity is
named in any letter case and with white space around (`parse_severity`); tools have
labels of their own, which a table of lower-case labels maps to severities
(`map_severity`).
-/

import LintMerge.Text.Letter
import LintMerge.Value

namespace LintMerge

/-- How grave an issue is. -/
inductive Severity where
  | info
  | warning
  | error
  deriving DecidableEq, Repr, Inhabited

namespace Severity

/-- The place of a severity in their order, the least grave first. -/
def rank : Severity → Nat
  | info => 0
  | warning => 1
  | error => 2

/-- The severities, the gravest first. -/
def all : List Severity := [error, warning, info]

/-- The name of a severity. -/
def name : Severity → String
  | info => "info"
  | warning => "warning"
  | error => "error"

/-- Whether a severity is at or above a threshold. -/
def atLeast (s threshold : Severity) : Bool := threshold.rank ≤ s.rank

/-- The severity of a name. -/
def ofName? (s : String) : Option Severity := all.find? fun v => v.name = s

@[simp] theorem ofName?_name (s : Severity) : ofName? s.name = some s := by
  cases s <;> decide

/-- The severity that a text names, in any letter case and with white space around. -/
def read? (s : String) : Option Severity := ofName? (lowered (trimmed s))

/-- What is said of a text that names no severity. -/
def unknownMessage (s : String) : String :=
  s!"Invalid severity '{s}'. Valid: " ++ ", ".intercalate (all.map name)

/-- The severity of a tool's label, `other` for a label that the table lacks. -/
def ofLabel (labels : List (String × Severity)) (other : Severity) : Value → Severity
  | .text s => ((labels.find? fun e => e.1 = lowered s).map (·.2)).getD other
  | _ => other

end Severity
end LintMerge
