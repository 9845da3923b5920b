/-
# Whether a linter worked

A linter ends with a code other than zero when it found something, so a code alone does not tell
whether it worked (`_classify_eslint`, `_json_object_classifier`, `_classify_tsc`). What it wrote
counts too: JSON linters that end with an unusual code have worked if a document starts their
output. A type checker that ends with a code other than zero and reports nothing casts doubt on
itself (`_tsc_low_confidence`).
-/

import LintMerge.Issue.Basic
import LintMerge.Linter.Facts
import LintMerge.Process.Basic

namespace LintMerge
namespace Linter

/-- The codes with which a linter that worked may end. -/
def usualCodes : Linter → List Int
  | tsc => [0, 1, 2]
  | _ => [0, 1]

/-- The character that starts a document of a linter. -/
def opening : Linter → Option Char
  | eslint => some '['
  | oxlint | biome => some '\x7b'
  | tsc => none

/-- Whether a document starts some output. -/
def opensDocument (l : Linter) (output : String) : Bool :=
  match l.opening with
  | none => false
  | some c => (Text.trimStart output.toList).head? = some c

/-- What is said of a linter that ended with an unusual code. -/
def statusMessage (l : Linter) (code : Int) : String := s!"{l.displayName} exited with status {code}"

/-- The first of some texts that is not empty, else the last. -/
def firstNotEmpty : List String → String
  | [] => ""
  | [s] => s
  | s :: rest => if s = "" then firstNotEmpty rest else s

/-- Why a linter failed. -/
def failureText (l : Linter) (o : Outcome) : String :=
  match l with
  | eslint => firstNotEmpty [trimmed o.stderr, "ESLint configuration error"]
  | tsc => firstNotEmpty [trimmed o.stderr, trimmed o.stdout, l.statusMessage o.exitCode]
  | _ => firstNotEmpty [trimmed o.stderr, l.statusMessage o.exitCode]

/-- Why a linter failed, none if its output is to be read. -/
def failure? (l : Linter) (o : Outcome) : Option String :=
  if l.usualCodes.contains o.exitCode || l.opensDocument o.stdout then none
  else some (l.failureText o)

/-- What is to be warned of although a linter worked. -/
def doubt? (l : Linter) (o : Outcome) (issues : List Issue) : Option String :=
  if l = tsc ∧ o.exitCode ≠ 0 ∧ issues = [] then
    some s!"exited with status {o.exitCode} but no diagnostics were recognised in its output"
  else none

theorem firstNotEmpty_ne_empty {ss : List String} (h : ss ≠ []) (hl : ss.getLast h ≠ "") :
    firstNotEmpty ss ≠ "" := by
  induction ss with
  | nil => exact absurd rfl h
  | cons s rest ih =>
    cases rest with
    | nil => simpa [firstNotEmpty] using hl
    | cons t more =>
      rw [firstNotEmpty]
      split
      · exact ih (by simp) (by simpa using hl)
      · assumption
      · simp

end Linter
end LintMerge
