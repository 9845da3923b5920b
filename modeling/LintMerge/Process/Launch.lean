/-
# Launching programs

A call that names no program is refused by the system, as is one from a folder that
is not there. What a program printed is text: octets that are no text become `U+FFFD`,
and every line end becomes a line feed unless the program was stopped half-way.
-/

import LintMerge.Process.Basic
import LintMerge.Shell.Run

namespace LintMerge
namespace Launch

open Shell

/-- The steps that a script may take at most. -/
def maxSteps : Nat := 20000

/-- The exit code of a program that was stopped for taking too long. -/
def timeoutCode : Int := 124

/-- The number and the name of a fault of the system. -/
def faultFacts : StartFault → Nat × String
  | .missing => (2, "No such file or directory")
  | .denied => (13, "Permission denied")
  | .notFolder => (20, "Not a directory")
  | .badFormat => (8, "Exec format error")
  | .tooManyLinks => (40, "Too many levels of symbolic links")
  | .tooLong => (36, "File name too long")

/-- The kind of a fault of the system. -/
def faultKind : StartFault → String
  | .missing => "FileNotFoundError"
  | .denied => "PermissionError"
  | .notFolder => "NotADirectoryError"
  | _ => "OSError"

/-- What the system says of a path. -/
def systemFault (f : StartFault) (path : String) : CallFault where
  kind := faultKind f
  message :=
    let (number, name) := faultFacts f
    s!"[Errno {number}] {name}: {quoted path}"
  bySystem := true
  kind_ne := by cases f <;> decide

/-- Why a folder cannot be worked in, if it cannot. -/
def folderFault? (t : Tree) (p : Path) : Option StartFault :=
  match t.node p with
  | .ok (.folder _) => none
  | .ok _ => some .notFolder
  | .error .missing => some .missing
  | .error .notFolder => some .notFolder
  | .error .tooManyLinks => some .tooManyLinks
  | .error .tooLong => some .tooLong

/-- Text in which each line end is a line feed. -/
def unifyLines : List Char → List Char
  | '\r' :: '\n' :: rest => '\n' :: unifyLines rest
  | '\r' :: rest => '\n' :: unifyLines rest
  | c :: rest => c :: unifyLines rest
  | [] => []

/-- The text of pieces of a stream, the last one first. -/
def textOf (unify : Bool) (pieces : List (List UInt8)) : String :=
  let s := Text.Utf8.decodeLossy pieces.reverse.flatten
  String.ofList (if unify then unifyLines s else s)

/-- What a program that ended left behind. -/
def outcome (ending : Ending) (m : Machine) : Outcome :=
  let unify := ending ≠ .outOfTime
  { stdout := textOf unify m.out
    stderr := textOf unify m.err
    exitCode :=
      match ending with
      | .exited code => code
      | .killed signal => -signal
      | .outOfTime => timeoutCode
    timedOut := ending = .outOfTime }

/-- The folders along which programs are searched when nothing else is said. -/
def systemFolders : List String := ["/bin", "/usr/bin"]

/-- Launches a program with variables, of which a script may take some steps. -/
def launchWithin (steps : Nat) (t : Tree) (environment : List (String × String)) (c : Call) : Answer :=
  if c.timeoutMs = 0 then .error (.badValue "timeout_ms must be positive")
  else if (c.command :: c.cwd.text :: c.args).any fun s => s.toList.contains '\x00' then
    .error (.badValue "embedded null byte")
  else
    match folderFault? t c.cwd with
    | some f => .error (systemFault f c.cwd.text)
    | none =>
      let folders := ((environment.lookup "PATH").map searchFolders).getD systemFolders
      match findProgram t c.cwd folders c.command with
      | .error f => .error (systemFault f c.command)
      | .ok (path, e) =>
        match interpreterFault? t c.cwd e with
        | some f => .error (systemFault f c.command)
        | none =>
          let m : Machine :=
            { tree := t
              name := if '/' ∈ c.command.toList then c.command else startName path e c.command
              args := c.args.map String.toList
              vars := environment.map fun (name, value) => ⟨name, value.toList, true⟩
              cwd := c.cwd
              limit := c.timeoutMs }
          let (ending, m) := start steps m e
          .ok (outcome ending m)
where
  /-- Why the program that runs a script cannot be started, if it cannot. -/
  interpreterFault? (t : Tree) (cwd : Path) : Executable → Option StartFault
    | .script _ interpreter _ _ =>
      match executable t cwd interpreter with
      | .ok _ => none
      | .error f => some f
    | .system _ => none
  /-- The name under which a program that was searched for is started. -/
  startName (path : String) (e : Executable) (command : String) : String :=
    match e with
    | .script .. => path
    | .system _ => command

/-- Launches a program with variables (`run_process`). -/
def launch (t : Tree) (environment : List (String × String)) (c : Call) : Answer :=
  launchWithin maxSteps t environment c

end Launch
end LintMerge
