/-
# Progress of a run

On an interactive console each linter that runs has a row that tells how it is
getting on (`LintProgress`). Elsewhere a line tells that it started. A quiet display shows
neither, and no warning of linters that are skipped.
-/

import LintMerge.Console.Message
import LintMerge.Linter.Event

namespace LintMerge

/-- How a linter is getting on. -/
inductive RowStatus where
  | running
  | done
  | failed
  deriving DecidableEq, Repr

namespace RowStatus

/-- How a status is shown. -/
def text : RowStatus → String
  | running => "running"
  | done => "[green]done[/]"
  | failed => "[red]failed[/]"

/-- Whether a row is settled. -/
def isSettled (s : RowStatus) : Bool := s != running

end RowStatus

/-- How progress is displayed. -/
inductive ProgressMode where
  | rows
  | lines
  | quiet
  deriving DecidableEq, Repr

/-- A display of progress: its rows in the order in which linters started, and what it
has written, line by line. -/
structure Progress where
  mode : ProgressMode
  rows : List (String × RowStatus) := []
  written : List String := []
  deriving DecidableEq, Repr

namespace Progress

/-- What stands before each line. -/
def lead : String := "lintmesh: "

/-- A display on a console. -/
def start (interactive quiet : Bool) : Progress where
  mode := if quiet then .quiet else if interactive then .rows else .lines

/-- A display that has written one more line. -/
def write (p : Progress) (line : String) : Progress := { p with written := p.written ++ [line] }

/-- Notes that a linter is skipped. -/
def skipped (p : Progress) (name : String) : Progress :=
  if p.mode = .quiet then p else p.write s!"{lead}{name} not available, skipping"

/-- Notes that a linter started. -/
def started (p : Progress) (name : String) : Progress :=
  match p.mode with
  | .quiet => p
  | .lines => p.write s!"{lead}running {name}..."
  | .rows => { p with rows := p.rows ++ [(name, .running)] }

/-- Rows with the last one of a name settled; rows of other names stay. -/
def settleLast (name : String) (status : RowStatus) (rows : List (String × RowStatus)) :
    List (String × RowStatus) :=
  match rows with
  | [] => []
  | (n, s) :: rest =>
    if n = name ∧ !rest.any fun r => r.1 = name then (n, status) :: rest
    else (n, s) :: settleLast name status rest

/-- Notes that a linter finished. -/
def finished (p : Progress) (name : String) (success : Bool) : Progress :=
  if p.mode = .rows then
    { p with rows := settleLast name (if success then .done else .failed) p.rows }
  else p

/-- Notes an event of a run. -/
def note (p : Progress) : Event → Progress
  | .skipped l => p.skipped l.name
  | .started l => p.started l.name
  | .finished run => p.finished run.linter.name run.success
  | _ => p

end Progress
end LintMerge
