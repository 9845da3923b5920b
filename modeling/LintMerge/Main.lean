/-
# The program

The arguments are a command line; the input holds a snapshot of the project that it is
carried out over. Linters that are scripts of the snapshot are run, and the snapshot
itself is left as it is.
-/

import LintMerge.Command.Screen
import LintMerge.Process.Launch
import LintMerge.Snapshot

open LintMerge

/-- Prints lines. -/
def printLines (stream : IO.FS.Stream) (lines : List (List Char)) : IO Unit :=
  lines.forM fun line => stream.putStrLn (String.ofList line)

/-- Carries out a command line over a snapshot. -/
def carryOut (s : Snapshot) (args : List String) : IO UInt32 := do
  let stderr ← IO.getStderr
  match Command.Request.read s.host.tree s.workDir args with
  | .error f =>
    printLines stderr (Command.usageLines f)
    return Command.usageStatus.toUInt32
  | .ok r =>
    let answer := Launch.launch s.host.tree [("PATH", ":".intercalate s.host.searchPath)]
    let result := r.carryOut s.host s.workDir s.taken answer
    printLines stderr result.stderr
    match result.ending.unhandled with
    | some f => stderr.putStrLn f.message
    | none => (← IO.getStdout).putStr result.ending.stdout
    return result.ending.status.toUInt32

/-- Reads the rest of a stream. -/
partial def readRest (stream : IO.FS.Stream) (done : String) : IO String := do
  let line ← stream.getLine
  if line.isEmpty then return done else readRest stream (done ++ line)

/-- The program: reads a snapshot and carries out a command line over it. -/
def main (args : List String) : IO UInt32 := do
  match Snapshot.read (← readRest (← IO.getStdin) "") with
  | some s => carryOut s args
  | none =>
    (← IO.getStderr).putStrLn "the input is no snapshot of a project"
    return Command.usageStatus.toUInt32
