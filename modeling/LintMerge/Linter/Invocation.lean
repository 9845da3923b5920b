/-
# Invocations

What one linter is given: the folder it runs in, the files and patterns asked for,
and options (`LinterInvocation`). From these come the arguments of its program
(`LinterAdapter.build_command_args`).
-/

import LintMerge.Check.Field
import LintMerge.Linter.Facts
import LintMerge.Path

namespace LintMerge

/-- The time that a run may take when nothing is said of it, in milliseconds. -/
def Linter.defaultTimeout : { n : Nat // 0 < n } := ⟨30000, by decide⟩

/-- All that one run of a linter depends on. -/
structure Invocation where
  cwd : Path
  files : List Path := []
  patterns : List String := []
  timeoutMs : { n : Nat // 0 < n } := Linter.defaultTimeout
  fix : Bool := false
  extraArgs : List String := []
  /-- the program to run -/
  bin : Option String := none
  deriving DecidableEq, Repr

namespace Check

/-- A path. -/
def path (v : Value) : Checked Path :=
  match v.string? with
  | some s => .ok (Path.ofText s)
  | none => .refuse .notPath

end Check

namespace Invocation

/-- Why files cannot be told from a value. -/
inductive FilesFault where
  | notPath (kind : String)
  | notCollection (kind : String)
  deriving DecidableEq, Repr

/-- What is said of a fault. -/
def FilesFault.message : FilesFault → String
  | notPath kind => s!"expected str, bytes or os.PathLike object, not {kind}"
  | notCollection kind => s!"'{kind}' object is not iterable"

/-- The path that an item of a collection of files names. -/
def fileOf (v : Value) : Except FilesFault Path :=
  match v.string? with
  | some s => .ok (Path.ofText s)
  | none => .error (.notPath v.kind)

/-- The files of a collection: the items of a list, the keys of a table, the characters
of a text; a null holds none. -/
def filesOf : Value → Except FilesFault (List Path)
  | .null => .ok []
  | .list vs => vs.mapM fileOf
  | .table es => .ok (es.map fun e => Path.ofText e.1)
  | v =>
    match v.string? with
    | some s => .ok (s.toList.map fun c => Path.ofText (String.singleton c))
    | none => .error (.notCollection v.kind)

/-- The invocation that a value describes. -/
def check (v : Value) : Except FilesFault (Checked Invocation) := do
  let files ← filesOf ((v.fieldOr "files" (.list [])))
  return Check.record .memory "LinterInvocation" v fun es =>
    (fun cwd patterns timeoutMs fix extraArgs bin =>
        ({ cwd, files, patterns, timeoutMs, fix, extraArgs, bin } : Invocation)) <$>
      Check.required es (.plain "cwd") Check.path <*>
      Check.defaulted es (.plain "patterns") [] (Check.sequence .memory Check.text) <*>
      Check.defaulted es (.plain "timeout_ms") Linter.defaultTimeout Check.positive <*>
      Check.defaulted es (.plain "fix") false Check.truth <*>
      Check.defaulted es (.plain "extra_args") [] (Check.sequence .memory Check.text) <*>
      Check.defaulted es (.plain "bin") none (Check.optional Check.text)

end Invocation

namespace Linter

/-- The arguments that a linter always needs, and those for fixing. -/
def ownArgs (l : Linter) (fix : Bool) : List String :=
  match l with
  | eslint => ["--format", "json", "--no-error-on-unmatched-pattern"] ++ if fix then ["--fix"] else []
  | oxlint => ["--format", "json"] ++ if fix then ["--fix"] else []
  | biome => ["lint", "--reporter=json"] ++ if fix then ["--write"] else []
  | tsc => ["--noEmit", "--pretty", "false"]

/-- The arguments of a linter's program: its own, those of the configuration, and the
files unless it looks at the whole project. -/
def args (l : Linter) (i : Invocation) : List String :=
  l.ownArgs i.fix ++ i.extraArgs ++ if l.isProjectWide then [] else i.files.map Path.text

end Linter
end LintMerge
