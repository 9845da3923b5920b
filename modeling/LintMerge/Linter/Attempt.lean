/-
# Running one linter

A linter is located, asked for its version, run and its output read, as its tool says
(`LinterAdapter.run`). What can go wrong on the way is a failed run with a message, but
for the faults that end the attempt: the program could not be run, a path was too long,
the output holds an integer with too many digits, or a function of the tool came to a
fault of its own, which those of the built-in tools do not.
-/

import LintMerge.Issue.Filter
import LintMerge.Linter.Event
import LintMerge.Linter.Program
import LintMerge.Linter.Tool
import LintMerge.Linter.Version
import LintMerge.Process.Job

namespace LintMerge

/-- What one linter contributes to a report. -/
structure Attempt where
  run : LinterRun
  issues : List Issue := []
  deriving DecidableEq, Repr

namespace Attempt

/-- What ends an attempt. -/
inductive Fault where
  | call (f : CallFault)
  | tooLong (p : Path)
  | tooManyDigits (count : Nat)
  /-- a function of the tool came to a fault of its own -/
  | raised (f : CallFault)
  deriving DecidableEq, Repr

/-- What is said of a fault. -/
def Fault.shown : Fault → String
  | call f => f.shown
  | tooLong p => Tree.tooLongMessage p
  | tooManyDigits count => Text.tooManyDigits count
  | raised f => f.shown

/-- A job that a fault may end. -/
abbrev Work (α : Type) := Job Event (Except Fault α)

/-- The time that a program may take to tell its version, in milliseconds. -/
def versionTimeoutMs : Nat := 10000

/-- The answer of a program that was asked for its version, if it gave one (`LinterAdapter._probe`). -/
def probe (t : Tool) (cwd : Path) (p : Program) : Work (Option Outcome) :=
  .call ⟨p.path, t.versionArgs, versionTimeoutMs, cwd⟩ fun
    | .ok o => .done (.ok (if o.timedOut || o.exitCode != 0 then none else some o))
    | .error f =>
      if f.bySystem then
        .tell (.detail s!"version probe for {t.linter.name} failed: {f.message}") (.done (.ok none))
      else .done (.error (.call f))

/-- The version that an answer tells. -/
def toldVersion (o : Outcome) : String :=
  let v := Version.ofAnswer (if o.stdout = "" then o.stderr else o.stdout)
  if v = "" then Version.unknown else v

/-- The version of a linter as it is shown, with the name of the program unless it is
the last of several or the only one (`LinterAdapter.version_of`). -/
def versionOf (t : Tool) (p : Program) : Option Outcome → String
  | none => Version.unknown
  | some o =>
    let version := toldVersion o
    if t.binaries.length > 1 ∧ t.binaries.getLast? ≠ some p.name then s!"{p.name} {version}"
    else version

/-- The program of a tool. -/
def locate (h : Host) (t : Tool) (cwd : Path) (name : Option String) :
    Except Fault (Option Program) :=
  (h.locate cwd t.binaries name).mapError .tooLong

/-- Whether a linter is there and tells its version (`LinterAdapter.is_available`). -/
def available (h : Host) (t : Tool) (cwd : Path) (name : Option String) : Work Bool :=
  match locate h t cwd name with
  | .error f => .done (.error f)
  | .ok none => .done (.ok false)
  | .ok (some p) => (probe t cwd p).bind fun answer => .done (answer.map Option.isSome)

/-- The version of a linter (`LinterAdapter.get_version`). -/
def version (h : Host) (t : Tool) (cwd : Path) (name : Option String) : Work String :=
  match locate h t cwd name with
  | .error f => .done (.error f)
  | .ok none => .done (.ok Version.notFound)
  | .ok (some p) => (probe t cwd p).bind fun answer => .done (answer.map (versionOf t p))

/-- A failed attempt. -/
def failed (l : Linter) (version message : String) : Attempt :=
  { run := { linter := l, version, success := false, error := some message } }

/-- A job that ends with a failed attempt. -/
def failing (l : Linter) (version message : String) : Work Attempt :=
  .tell (.detail s!"{l.name} failed: {message}") (.done (.ok (failed l version message)))

/-- What is read: both streams with a line feed between them, or the first. -/
def output (t : Tool) (o : Outcome) : String :=
  if t.usesBothStreams then o.stdout ++ "\n" ++ o.stderr else o.stdout

/-- The attempt that found some issues. -/
def succeeded (t : Tool) (i : Invocation) (version : String) (warning : Option String)
    (issues : List Issue) : Attempt where
  run :=
    { linter := t.linter, version, success := true, warning, filesProcessed := i.files.length }
  issues := if t.isProjectWide then Issue.filter issues i.patterns (some i.cwd) else issues

/-- What issues come to that were found. An empty warning is kept, but nobody is warned. -/
def accept (t : Tool) (i : Invocation) (version : String) (o : Outcome) (issues : List Issue) :
    Work Attempt :=
  match t.doubt? o issues with
  | .error f => .done (.error (.raised f))
  | .ok none => .done (.ok (succeeded t i version none issues))
  | .ok (some warning) =>
    let ending : Work Attempt := .done (.ok (succeeded t i version (some warning) issues))
    if warning = "" then ending else .tell (.warning s!"{t.linter.name}: {warning}") ending

/-- What an output comes to that is to be read. -/
def read (t : Tool) (i : Invocation) (version : String) (o : Outcome) : Work Attempt :=
  match t.parse i.cwd (output t o) with
  | .error f => .done (.error (.raised f))
  | .ok (.error (.tooManyDigits count)) => .done (.error (.tooManyDigits count))
  | .ok (.error (.malformed tool detail)) =>
    failing t.linter version (Output.malformedMessage tool detail)
  | .ok (.error (.invalid first _)) =>
    failing t.linter version (Output.malformedMessage t.linter.name first.problem.message)
  | .ok (.ok issues) => accept t i version o issues

/-- What a linter's answer comes to. -/
def conclude (t : Tool) (i : Invocation) (version : String) (o : Outcome) : Work Attempt :=
  if o.timedOut then
    failing t.linter version s!"{t.displayName} timed out after {i.timeoutMs.1}ms"
  else
    match t.failure? o with
    | .error f => .done (.error (.raised f))
    | .ok (some message) => failing t.linter version message
    | .ok none => read t i version o

/-- The call of a program with some arguments. -/
def callWith (args : List String) (i : Invocation) (p : Program) : Call :=
  ⟨p.path, args, i.timeoutMs.1, i.cwd⟩

/-- The call that runs a linter. -/
def callOf (l : Linter) (i : Invocation) (p : Program) : Call := callWith (l.args i) i p

/-- What is noted before a call. -/
def callText (c : Call) : String := s!"running {c.command} " ++ " ".intercalate c.args

/-- Runs a linter whose program is located and whose version is known. -/
def launch (t : Tool) (i : Invocation) (p : Program) (version : String) : Work Attempt :=
  match t.args i with
  | .error f => .done (.error (.raised f))
  | .ok args =>
    let c := callWith args i p
    .tell (.detail (callText c)) (.call c fun
      | .error f => .done (.error (.call f))
      | .ok o => conclude t i version o)

/-- Runs a linter. -/
def perform (h : Host) (t : Tool) (i : Invocation) : Work Attempt :=
  match locate h t i.cwd i.bin with
  | .error f => .done (.error f)
  | .ok none =>
    match t.missingMessage with
    | .error f => .done (.error (.raised f))
    | .ok message => failing t.linter Version.notFound message
  | .ok (some p) =>
    (probe t i.cwd p).bind fun
      | .error f => .done (.error f)
      | .ok answer => launch t i p (versionOf t p answer)

/-- What issues come to that a built-in tool found: of them alone nobody is warned in vain. -/
theorem accept_tool (l : Linter) (i : Invocation) (version : String) (o : Outcome) (issues : List Issue) :
    accept l i version o issues =
      match l.doubt? o issues with
      | some warning =>
        .tell (.warning s!"{l.name}: {warning}")
          (.done (.ok (succeeded l i version (some warning) issues)))
      | none => .done (.ok (succeeded l i version none issues)) := by
  simp only [accept, Linter.tool]
  cases hdoubt : l.doubt? o issues with
  | none => rfl
  | some warning => exact if_neg (Linter.ne_empty_of_doubt? hdoubt)

/-- What an output comes to that a built-in tool is to read. -/
theorem read_tool (l : Linter) (i : Invocation) (version : String) (o : Outcome) :
    read l i version o =
      match l.parse i.cwd (output l o) with
      | .error (.tooManyDigits count) => .done (.error (.tooManyDigits count))
      | .error (.malformed tool detail) => failing l version (Output.malformedMessage tool detail)
      | .error (.invalid first _) =>
        failing l version (Output.malformedMessage l.name first.problem.message)
      | .ok issues => accept l i version o issues := by
  simp only [read, Linter.tool]
  rcases l.parse i.cwd _ with (_ | _ | _) | issues <;> rfl

/-- What the answer of a built-in tool comes to. -/
theorem conclude_tool (l : Linter) (i : Invocation) (version : String) (o : Outcome) :
    conclude l i version o =
      if o.timedOut then
        failing l version s!"{l.displayName} timed out after {i.timeoutMs.1}ms"
      else
        match l.failure? o with
        | some message => failing l version message
        | none => read l i version o := by
  simp only [conclude, Linter.tool]
  cases l.failure? o <;> rfl

/-- Running the program of a built-in tool. -/
theorem launch_tool (l : Linter) (i : Invocation) (p : Program) (version : String) :
    launch l i p version =
      .tell (.detail (callText (callOf l i p))) (.call (callOf l i p) fun
        | .error f => .done (.error (.call f))
        | .ok o => conclude l i version o) := rfl

/-- Running a built-in tool. -/
theorem perform_tool (h : Host) (l : Linter) (i : Invocation) :
    perform h l i =
      match locate h l i.cwd i.bin with
      | .error f => .done (.error f)
      | .ok none => failing l Version.notFound l.missingMessage
      | .ok (some p) =>
        (probe l i.cwd p).bind fun
          | .error f => .done (.error f)
          | .ok answer => launch l i p (versionOf l p answer) := by
  rw [perform]
  simp only [Linter.missingMessage_tool, Linter.linter_tool]

end Attempt
end LintMerge
