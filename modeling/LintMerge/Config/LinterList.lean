/-
# Lists of linters

Linters are listed by their names, in any letter case, between commas. White space
around a name, empty names and repetitions do not count, but one name at least is
needed (`parse_linter_list`).
-/

import LintMerge.Linter
import LintMerge.Text.Blank
import LintMerge.Text.Letter

namespace LintMerge
namespace LinterList

/-- Why a text is no list of linters. -/
inductive Fault where
  | unknown (name : String)
  | empty
  deriving DecidableEq, Repr

/-- What is said of a fault. -/
def Fault.message : Fault → String
  | unknown name => s!"Unknown linter '{name}'. Valid: " ++ ", ".intercalate (Linter.all.map Linter.name)
  | empty => "No linters specified"

/-- The names in a text. -/
def names (s : String) : List String :=
  ((Text.splitOn ',' s.toList).map fun part => String.ofList (Text.lower (Text.trim part))).filter
    (· ≠ "")

/-- The linter of a name. -/
def linter (name : String) : Except Fault Linter :=
  match Linter.ofName? name with
  | some l => .ok l
  | none => .error (.unknown name)

/-- The linters that a text lists, each once. -/
def parse (s : String) : Except Fault (List Linter) := do
  let found ← (names s).mapM linter
  if found.isEmpty then throw .empty else return found.eraseDups

end LinterList
end LintMerge
