/-
# The command that runs the linters

Configuration, settings and files are found first; any problem with them ends the
command before a linter is even probed. Then the batch runs, its report is printed,
and the status tells what it holds (`lint_command`).
-/

import LintMerge.Batch.Run
import LintMerge.Command.Ending
import LintMerge.Command.Request
import LintMerge.Config.LinterList
import LintMerge.Console.Line
import LintMerge.Report.Compact
import LintMerge.Report.Wire

namespace LintMerge
namespace Command

/-- What a request says in the place of a configuration. -/
def overrides (r : LintRequest) : Except Stop Overrides := do
  let linters ← r.linters.mapM fun s => (LinterList.parse s).mapError fun f => Stop.told f.message
  let failOn ← r.failOn.mapM fun s =>
    match Severity.read? s with
    | some sev => Except.ok sev
    | none => .error (.told (Severity.unknownMessage s))
  return {
    files := r.files
    linters := linters.map fun ls => ls.map Linter.name
    timeoutMs := r.timeoutMs
    failOn
    excludes := r.excludes
    fix := r.fix }

/-- The settings of a request. -/
def settingsOf (h : Host) (root : Path) (r : LintRequest) : Except Stop Settings := do
  let loaded ← (Config.load h.tree root).mapError fun
    | .tooLong p => Stop.unhandled (.tooLong p)
    | f => .told f.message
  match Settings.resolve root loaded (← overrides r) with
  | .ok s => return s
  | .refused first _ => throw (.told first.message)

/-- The files of a request. -/
def targets (h : Host) (s : Settings) : Except Stop (List Path) :=
  (h.tree.files s.cwd s.patterns s.excludes s.includes).mapError fun
    | f@(.tooLong _) => Stop.told f.message
    | .badPattern line => .unhandled (.badPattern line)

/-- The options of the batch that settings ask for. -/
def batchOf (s : Settings) (files : List Path) : Batch.Options where
  cwd := s.cwd
  linters := s.linters.eraseDups
  nodup := Batch.nodup_eraseDups s.linters
  files
  patterns := s.patterns
  excludes := s.excludes
  timeoutMs := s.timeoutMs
  fix := s.fix
  bins := s.bins.map fun (l, b) => (l.name, b)
  extraArgs := s.extraArgs.map fun (l, as) => (l.name, as)

/-- A report as it is printed. -/
def printed (r : LintRequest) (report : Report) : String :=
  if r.json then report.write r.pretty ++ "\n"
  else String.ofList (Console.shown report.compact.plain) ++ "\n"

/-- Tells of each linter that failed. -/
def tellFailures : List String → Job Event Unit
  | [] => .done ()
  | line :: rest => .tell (.notice line) (tellFailures rest)

/-- Why a report cannot be printed, if it cannot. -/
def printFault? (r : LintRequest) (report : Report) : Option Unhandled :=
  if r.json then report.writeFault?.map .unwritable else report.compactFault?.map .unprintable

/-- The end of a run with a report. -/
def reported (s : Settings) (r : LintRequest) (report : Report) : Ending :=
  match printFault? r report with
  | some f => .ofUnhandled f
  | none => { status := (report.exitStatus s.failOn).code, stdout := printed r report }

/-- Prints the report of a batch, if there is one. -/
def conclude (s : Settings) (r : LintRequest) : Batch.Result → Job Event Ending
  | .error f => .done (.ofUnhandled (.unsortable f))
  | .ok report =>
    (tellFailures (if r.quiet then [] else report.failureLines)).bind fun _ =>
      .done (reported s r report)

/-- Runs the linters over the files of settings. -/
def lintOver (h : Host) (timestamp : Stamp) (s : Settings) (r : LintRequest) : Job Event Ending :=
  match targets h s with
  | .error stop => stop.finish
  | .ok files =>
    let o := batchOf s files
    (Batch.runOver h timestamp o o.tools).bind (conclude s r)

/-- Tells which file configures a run, on request. -/
def tellConfig (s : Settings) (verbose : Bool) : Job Event Unit :=
  match s.configPath with
  | some p => if verbose then Job.say (.notice s!"using config from {p.text}") else .done ()
  | none => .done ()

/-- The settings of a request over a root. -/
def prepare (h : Host) (workDir : Path) (r : LintRequest) : Except Stop Settings := do
  settingsOf h (← rootOf h workDir r.cwd) r

/-- Runs the linters. -/
def lint (h : Host) (workDir : Path) (timestamp : Stamp) (r : LintRequest) : Job Event Ending :=
  match prepare h workDir r with
  | .error stop => stop.finish
  | .ok s => (tellConfig s r.verbose).bind fun _ => lintOver h timestamp s r

end Command
end LintMerge
