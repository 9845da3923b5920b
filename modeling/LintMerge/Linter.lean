/-
# The linters

Four linters for JavaScript and TypeScript are known; three of them run when
nothing else is asked for (`DEFAULT_LINTERS`).
-/

namespace LintMerge

/-- A linter. -/
inductive Linter where
  | eslint
  | oxlint
  | biome
  | tsc
  deriving DecidableEq, Repr, Inhabited

namespace Linter

/-- The linters, in the order in which they are shown. -/
def all : List Linter := [eslint, oxlint, biome, tsc]

/-- The linters that run when none is chosen. -/
def defaults : List Linter := [eslint, oxlint, tsc]

/-- The name of a linter. -/
def name : Linter → String
  | eslint => "eslint"
  | oxlint => "oxlint"
  | biome => "biome"
  | tsc => "tsc"

/-- The linter of a name. -/
def ofName? (s : String) : Option Linter := all.find? fun l => l.name = s

theorem mem_all (l : Linter) : l ∈ all := by cases l <;> decide

@[simp] theorem ofName?_name (l : Linter) : ofName? l.name = some l := by
  cases l <;> decide

end Linter
end LintMerge
