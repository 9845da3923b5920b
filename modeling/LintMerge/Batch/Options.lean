/-
# Options of a batch

A batch (`RunOptions`) runs several linters over the same files. Each linter is asked for once, in
the order of the first request; programs and further arguments are given by the
names of linters, and a name of none is ignored.
-/

import LintMerge.Linter.Invocation

namespace LintMerge
namespace Batch

/-- A list in which each entry is kept where it first occurs holds none twice. -/
theorem nodup_eraseDups {α : Type} [BEq α] [LawfulBEq α] : (as : List α) → as.eraseDups.Nodup
  | [] => by simp
  | a :: as => by
    rw [List.eraseDups_cons, List.nodup_cons]
    exact ⟨by simp [List.mem_eraseDups], nodup_eraseDups _⟩
termination_by as => as.length
decreasing_by exact Nat.lt_succ_of_le (List.length_filter_le _ _)

/-- All that a batch depends on, but for the host. -/
structure Options where
  cwd : Path
  /-- the linters asked for, each once -/
  linters : List Linter := Linter.defaults
  files : List Path := []
  patterns : List String := []
  excludes : List String := []
  timeoutMs : { n : Nat // 0 < n } := Linter.defaultTimeout
  fix : Bool := false
  /-- programs to run, by name of linter -/
  bins : List (String × String) := []
  /-- further arguments, by name of linter -/
  extraArgs : List (String × List String) := []
  nodup : linters.Nodup := by decide
  deriving Repr

namespace Options

/-- The entries of a table, each of which is checked. -/
def checkEntries {α : Type} (check : Value → Checked α) : List (String × Value) → Checked (List (String × α))
  | [] => .ok []
  | (k, v) :: rest =>
    (fun a more => (k, a) :: more) <$> (check v).under (.key k) <*> checkEntries check rest

/-- A table, each entry of which is checked. -/
def checkTable {α : Type} (check : Value → Checked α) : Value → Checked (List (String × α))
  | .table es => checkEntries check es
  | _ => .refuse .notTable

/-- The options that a value describes. -/
def check (v : Value) : Checked Options :=
  Check.record .memory "RunOptions" v fun es =>
    let texts (name : String) :=
      Check.defaulted es (.plain name) [] (Check.sequence .memory Check.text)
    (fun cwd (linters : List Linter) files patterns excludes timeoutMs fix bins extraArgs =>
        ({ cwd, linters := linters.eraseDups, files, patterns, excludes, timeoutMs, fix, bins, extraArgs,
           nodup := nodup_eraseDups linters } : Options)) <$>
      Check.required es (.plain "cwd") Check.path <*>
      Check.defaulted es (.plain "linters") Linter.defaults
        (Check.sequence .memory (Check.named .notNamed Linter.name Linter.all)) <*>
      Check.defaulted es (.plain "files") [] (Check.sequence .memory Check.path) <*>
      texts "patterns" <*>
      texts "exclude" <*>
      Check.defaulted es (.plain "timeout_ms") Linter.defaultTimeout Check.positive <*>
      Check.defaulted es (.plain "fix") false Check.truth <*>
      Check.defaulted es (.plain "bins") [] (checkTable Check.text) <*>
      Check.defaulted es (.plain "extra_args") []
        (checkTable (Check.sequence .memory Check.text))

/-- The program to run for a name. -/
def binOf (o : Options) (name : String) : Option String :=
  (o.bins.find? fun e => e.1 = name).map (·.2)

/-- The further arguments for a name. -/
def extraArgsOf (o : Options) (name : String) : List String :=
  ((o.extraArgs.find? fun e => e.1 = name).map (·.2)).getD []

/-- What the linter of a name is given. -/
def invocationFor (o : Options) (name : String) : Invocation where
  cwd := o.cwd
  files := o.files
  patterns := o.patterns
  timeoutMs := o.timeoutMs
  fix := o.fix
  extraArgs := o.extraArgsOf name
  bin := o.binOf name

end Options
end Batch
end LintMerge
