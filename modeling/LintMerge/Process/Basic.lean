/-
# Programs that are run

A call names a program, its arguments, the time it may take and the folder it runs
in. It ends with what the program wrote and its exit code (`ExecResult`), or the program
could not be run at all.
-/

import LintMerge.Path

namespace LintMerge

/-- A program to be run once. -/
structure Call where
  command : String
  args : List String
  timeoutMs : Nat
  cwd : Path
  deriving DecidableEq, Repr

/-- What a program wrote and how it ended. -/
structure Outcome where
  stdout : String := ""
  stderr : String := ""
  exitCode : Int := 0
  timedOut : Bool := false
  deriving DecidableEq, Repr, Inhabited

/-- Why a program could not be run. -/
structure CallFault where
  /-- the kind of fault, which has a name -/
  kind : String
  message : String
  /-- whether it was the system that refused to run the program -/
  bySystem : Bool
  kind_ne : kind ≠ "" := by decide
  deriving Repr

instance : DecidableEq CallFault
  | ⟨k, m, s, _⟩, ⟨k', m', s', _⟩ => decidable_of_iff (k = k' ∧ m = m' ∧ s = s') (by simp)

/-- The fault of a value that makes no sense. -/
def CallFault.badValue (message : String) : CallFault :=
  { kind := "ValueError", message, bySystem := false }

/-- What is said of a fault: its message, its kind when there is none. -/
def CallFault.shown (f : CallFault) : String := if f.message = "" then f.kind else f.message

/-- How a call ends. -/
abbrev Answer := Except CallFault Outcome

theorem CallFault.shown_ne_empty (f : CallFault) : f.shown ≠ "" := by
  unfold shown
  split
  · exact f.kind_ne
  · assumption

end LintMerge
