/-
# What is known of each linter

The names of its programs, the preferred one first, the files that configure it and the packages
that bring it (the built-in `LinterTool`s). One linter looks at the whole project whatever files it
is given, and reports on both of its streams.
-/

import LintMerge.Linter

namespace LintMerge
namespace Linter

/-- The name of a linter as its makers write it. -/
def displayName : Linter → String
  | eslint => "ESLint"
  | oxlint => "Oxlint"
  | biome => "Biome"
  | tsc => "TypeScript"

/-- What a linter is, in a sentence. -/
def description : Linter → String
  | eslint => "Pluggable JavaScript and TypeScript linter."
  | oxlint => "Rust-based linter from the oxc project."
  | biome => "Formatter and linter for web projects."
  | tsc => "TypeScript type checker (tsgo preferred over tsc)."

/-- The programs of a linter, the preferred one first. -/
def binaries : Linter → List String
  | tsc => ["tsgo", "tsc"]
  | l => [l.name]

/-- Whether a linter looks at the whole project. -/
def isProjectWide (l : Linter) : Bool := l = tsc

/-- Whether a linter reports on both of its streams. -/
def usesBothStreams (l : Linter) : Bool := l = tsc

/-- The arguments that ask a program for its version. -/
def versionArgs : List String := ["--version"]

/-- The files that configure a linter, the first one preferred. -/
def configFiles : Linter → List String
  | eslint =>
    ["eslint.config.js", "eslint.config.mjs", "eslint.config.cjs", "eslint.config.ts",
     ".eslintrc.js", ".eslintrc.cjs", ".eslintrc.json", ".eslintrc.yml", ".eslintrc.yaml",
     ".eslintrc"]
  | oxlint => ["oxlint.json", ".oxlintrc.json"]
  | biome => ["biome.json", "biome.jsonc"]
  | tsc => ["tsconfig.json"]

/-- The packages that bring a linter. -/
def packages : Linter → List String
  | eslint => ["eslint", "@eslint/js", "typescript-eslint", "@typescript-eslint/eslint-plugin"]
  | oxlint => ["oxlint"]
  | biome => ["@biomejs/biome"]
  | tsc => ["typescript", "@typescript/native-preview"]

/-- What is said when none of some programs is found, one at least. -/
def missingMessage? : List String → Option String
  | [] => none
  | [only] => some s!"{only} not found"
  | names =>
    let head := ", ".intercalate names.dropLast
    let last := names.getLast?.getD ""
    some s!"Neither {head} nor {last} found"

/-- What is said when no program of a linter is found. -/
def missingMessage (l : Linter) : String := (missingMessage? l.binaries).getD ""

end Linter
end LintMerge
