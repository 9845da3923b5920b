/-
# The output of any linter

Each linter has a reader of its own.
-/

import LintMerge.Output.Biome
import LintMerge.Output.Eslint
import LintMerge.Output.Oxlint
import LintMerge.Output.Tsc

namespace LintMerge

/-- The issues in the output of a linter. -/
def Linter.parse (l : Linter) : (root : Path) → (output : String) → Except Output.Fault (List Issue) :=
  match l with
  | eslint => Output.Eslint.parse
  | oxlint => Output.Oxlint.parse
  | biome => Output.Biome.parse
  | tsc => Output.Tsc.parse

end LintMerge
