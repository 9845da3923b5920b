/-
# Documents that linters print

Three of the linters print one JSON document. Blank output is no document
(`load_json_document`). Inside
a document a linter is taken at its word where this is possible: a number may be
written as a text, a text as a number, and what is of the wrong kind counts as
absent (`coerce_optional_int`, `coerce_optional_str`).
-/

import LintMerge.Issue.Basic
import LintMerge.Json.Reader

namespace LintMerge
namespace Output

/-- Why output cannot be turned into issues. -/
inductive Fault where
  /-- not what the linter always prints -/
  | malformed (tool detail : String)
  /-- an integer with too many digits -/
  | tooManyDigits (count : Nat)
  /-- an issue that breaks a rule for issues -/
  | invalid (first : Check.Fault) (rest : List Check.Fault)
  deriving DecidableEq, Repr

/-- What is said of malformed output. -/
def malformedMessage (tool detail : String) : String := s!"{tool} produced malformed output: {detail}"

/-- What is said of a fault. -/
def Fault.message : Fault → String
  | malformed tool detail => malformedMessage tool detail
  | tooManyDigits count => Text.tooManyDigits count
  | invalid first _ => first.problem.message

/-- The outcome of a check as one of reading output. -/
def ofChecked {α : Type} : Checked α → Except Fault α
  | .ok a => .ok a
  | .refused first rest => .error (.invalid first rest)

/-- The document that a linter printed, none for blank output and for a null. -/
def load (tool : String) (output : String) : Except Fault (Option Value) :=
  let text := Text.trim output.toList
  if text.isEmpty then .ok none
  else
    match Json.document text with
    | .ok .null => .ok none
    | .ok v => .ok (some v)
    | .error (.tooManyDigits count) => .error (.tooManyDigits count)
    | .error (.malformed cause remaining) =>
      let p := Json.positionIn text remaining
      .error (.malformed tool
        s!"invalid JSON at line {p.line} column {p.column}: {cause.message}")

/-- The entries of a value that has to be a table. -/
def table (tool what : String) : Value → Except Fault (List (String × Value))
  | .table entries => .ok entries
  | v => .error (.malformed tool s!"expected {what} to be an object, got {v.kind}")

/-- The items of a value that has to be a list. -/
def list (tool what : String) : Value → Except Fault (List Value)
  | .list items => .ok items
  | v => .error (.malformed tool s!"expected {what} to be an array, got {v.kind}")

/-- The tables among the items of a list; none for what is no list. -/
def tables : Value → List Value
  | .list items => items.filter fun
    | .table _ => true
    | _ => false
  | _ => []

/-- Whether a value is a table. -/
def isTable : Value → Bool
  | .table _ => true
  | _ => false

/-- The whole number that a value holds. -/
def integer? : Value → Option Int
  | .int n => some n
  | .float x => x.toInt?
  | .text s => Text.readInt? s.toList
  | _ => none

/-- The text of a value, none for null. -/
def text? : Value → Option String
  | .null => none
  | v => some v.shown

/-- The text of a value, none for null and for an empty text. -/
def someText? (v : Value) : Option String := (text? v).filter (· ≠ "")

/-- The torn text of a value, if it is one. -/
def torn? : Value → Option Torn
  | .torn t => some t
  | _ => none

/-- The path of a file as it is seen from a directory, if halves of pairs are left in it. -/
def tornKey? (root : Path) (file : Value) : Option Torn :=
  (torn? file).bind fun t => Torn.of? (root.keyGlyphs t.glyphs)

/-- The whole number that a value holds, another one in the place of none and of zero. -/
def integerOr (other : Int) (v : Value) : Int :=
  match integer? v with
  | some n => if n = 0 then other else n
  | none => other

/-- The two whole numbers of a list of two. -/
def pair? : Value → Option (Int × Int)
  | .list [a, b] => do return (← integer? a, ← integer? b)
  | _ => none

/-- The diagnostics in the table that a linter printed, none in blank output. -/
def diagnostics (tool output : String) : Except Fault (List Value) := do
  match ← load tool output with
  | none => return []
  | some document =>
    let entries ← table tool "report" document
    let items ← list tool "'diagnostics'" ((Value.lookup "diagnostics" entries).getD (.list []))
    return tables (.list items)

/-- The issues of the diagnostics that can be located. -/
def located (issue? : Value → Except Fault (Option Issue)) (diagnostics : List Value) :
    Except Fault (List Issue) := do
  let found ← diagnostics.mapM issue?
  return found.filterMap id

/-- The rule of issues that name none. -/
def unnamedRule : String := "parse-error"

/-- The rule of a linter under a name that tells the linter too. -/
def ruleOf (linter : Linter) (rule : String) : String := s!"{linter.name}/{rule}"

/-- A rule as a linter names it, with a name for those that have none. -/
def ruleText (v : Value) : String := (someText? v).getD unnamedRule

end Output
end LintMerge
