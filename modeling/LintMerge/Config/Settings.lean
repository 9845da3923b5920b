/-
# Settings of a run

What the command line says comes before what the configuration says, and that
before the defaults (`resolve_settings`). Exclusions add up: those that are always there first, then
those of the configuration, then those of the command line.
-/

import LintMerge.Config.Locate
import LintMerge.Tree.Files

namespace LintMerge

/-- What is looked at when nothing else is asked for. -/
def defaultInclude : List String := [sourceGlob]

/-- What is never looked at. -/
def defaultExclude : List String := ["**/node_modules/**", "**/dist/**", "**/build/**", "**/.git/**"]

/-- How long a linter may run, in milliseconds. -/
def defaultTimeoutMs : Nat := 30000

/-- The least severity that fails a run. -/
def defaultFailOn : Severity := .error

/-- What the command line says. -/
structure Overrides where
  files : List String := []
  /-- names of linters -/
  linters : Option (List String) := none
  timeoutMs : Option Int := none
  failOn : Option Severity := none
  excludes : List String := []
  fix : Bool := false
  deriving DecidableEq, Repr

/-- All that a run depends on. -/
structure Settings where
  cwd : Path
  linters : List Linter
  patterns : List String
  includes : List String
  excludes : List String
  timeoutMs : { n : Nat // 0 < n }
  failOn : Severity
  fix : Bool
  /-- programs to run, by linter -/
  bins : List (Linter × String)
  /-- further arguments, by linter -/
  extraArgs : List (Linter × List String)
  configPath : Option Path
  deriving DecidableEq, Repr

namespace Settings

/-- The names of the linters that run. -/
def selection (c : Config) (o : Overrides) : List String :=
  match o.linters with
  | some names => names.eraseDups
  | none => (if c.enabledLinters.isEmpty then Linter.defaults else c.enabledLinters).map Linter.name

/-- The time that a linter may run. A time of zero in a configuration says nothing. -/
def timeout (c : Config) (o : Overrides) : Int :=
  o.timeoutMs.getD ((c.timeoutMs.filter (· ≠ 0)).getD defaultTimeoutMs)

/-- The settings of a run. -/
def resolve (root : Path) (loaded : LoadedConfig) (o : Overrides) : Checked Settings :=
  let c := loaded.config
  (fun linters timeoutMs =>
    { cwd := root
      linters
      patterns := o.files
      includes := if (c.includes.getD []).isEmpty then defaultInclude else c.includes.getD []
      excludes := (defaultExclude ++ c.excludes.getD [] ++ o.excludes).eraseDups
      timeoutMs
      failOn := o.failOn.getD (c.failOn.getD defaultFailOn)
      fix := o.fix
      bins := c.linters.filterMap fun (l, s) => (s.bin.filter (· ≠ "")).map (l, ·)
      extraArgs := (c.linters.map fun (l, s) => (l, s.args)).filter (!·.2.isEmpty)
      configPath := loaded.path }) <$>
    (Checked.items (Check.named .notNamed Linter.name Linter.all)
      ((selection c o).map .text)).under (.key "linters") <*>
    (Check.positive (.int (timeout c o))).under (.key "timeout_ms")

end Settings
end LintMerge
