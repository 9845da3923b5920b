/-
# An overview of the linters of a project

A table with a row for each linter: where it was found, its version, and whether the
project has opted into it (`detection_table`).
-/

import LintMerge.Console.Markup
import LintMerge.Console.Table
import LintMerge.Linter.Detection

namespace LintMerge
namespace Detection

/-- The headings of the overview. -/
def headings : List String :=
  ["Linter", "Binary", "Source", "Version", "Config", "package.json", "Recommended"]

/-- A text, a dash for none and for an empty one. -/
def orDash (s : Option String) : String := (s.filter (· ≠ "")).getD "-"

/-- A truth value in words. -/
def yesNo (b : Bool) : String := if b then "yes" else "no"

/-- What the columns show of a linter. -/
def columns : List (Detection → String) :=
  [fun d => d.linter.name,
   fun d => orDash d.binPath,
   fun d => orDash (d.binSource.map ProgramSource.name),
   fun d => orDash d.version,
   fun d => (d.configPath.map Path.name).getD "-",
   fun d => yesNo d.declared,
   fun d => yesNo d.recommended]

/-- The column of a heading. -/
def column (ds : List Detection) (heading : String) (shown : Detection → String) :
    Except Console.Markup.Fault Console.Column := do
  return ⟨heading.toList, ← ds.mapM fun d => Console.Markup.text (shown d).toList⟩

/-- The lines of the overview on a console of a width. -/
def overview (width : Nat) (ds : List Detection) : Except Console.Markup.Fault (List (List Char)) := do
  let cs ← (headings.zip columns).mapM fun (heading, shown) => column ds heading shown
  return Console.Table.render width cs

end Detection
end LintMerge
