/-
# Jobs

A job is work that runs programs. What it does next depends on what they answer, so a job is a tree:
it ends with a value, runs a program and goes on by the answer, or tells of something and goes on.
Whoever carries a job out answers its calls (`ProcessRunner`), and may do so for several jobs in
turn; `run` carries out one from start to end.
-/

import LintMerge.Process.Basic

namespace LintMerge

/-- Work that runs programs and tells of events of a type. -/
inductive Job (ε α : Type) where
  | done (value : α)
  | call (c : Call) (next : Answer → Job ε α)
  | tell (event : ε) (rest : Job ε α)

namespace Job

variable {ε α β γ : Type}

/-- A job, and another that goes on with its value. -/
def bind : Job ε α → (α → Job ε β) → Job ε β
  | done a, f => f a
  | call c next, f => call c fun answer => (next answer).bind f
  | tell e rest, f => tell e (rest.bind f)

instance : Monad (Job ε) where
  pure := done
  bind := bind

/-- A job that tells of an event. -/
def say (e : ε) : Job ε Unit := tell e (done ())

/-- A step that a job took. -/
inductive Step (ε : Type) where
  | called (c : Call)
  | told (event : ε)
  deriving DecidableEq, Repr

/-- The calls among some steps. -/
def calls (steps : List (Step ε)) : List Call := steps.filterMap fun
  | .called c => some c
  | .told _ => none

/-- The events among some steps. -/
def events (steps : List (Step ε)) : List ε := steps.filterMap fun
  | .called _ => none
  | .told e => some e

/-- The value of a job and the steps on the way to it. -/
def run (answer : Call → Answer) : Job ε α → α × List (Step ε)
  | done a => (a, [])
  | call c next =>
    let (a, steps) := run answer (next (answer c))
    (a, .called c :: steps)
  | tell e rest =>
    let (a, steps) := run answer rest
    (a, .told e :: steps)

/-- The value of a job. -/
def value (answer : Call → Answer) (j : Job ε α) : α := (j.run answer).1

/-- The steps of a job. -/
def steps (answer : Call → Answer) (j : Job ε α) : List (Step ε) := (j.run answer).2

/-- Jobs one after the other. -/
def inTurn : List (Job ε α) → Job ε (List α)
  | [] => done []
  | j :: rest => j.bind fun a => (inTurn rest).bind fun as => done (a :: as)

@[simp] theorem value_done (answer : Call → Answer) (a : α) : (done a : Job ε α).value answer = a := rfl

@[simp] theorem steps_done (answer : Call → Answer) (a : α) : (done a : Job ε α).steps answer = [] := rfl

@[simp] theorem value_bind (answer : Call → Answer) (j : Job ε α) (f : α → Job ε β) :
    (j.bind f).value answer = (f (j.value answer)).value answer := by
  induction j with
  | done a => rfl
  | call c next ih => exact ih (answer c)
  | tell e rest ih => exact ih

@[simp] theorem steps_bind (answer : Call → Answer) (j : Job ε α) (f : α → Job ε β) :
    (j.bind f).steps answer = j.steps answer ++ (f (j.value answer)).steps answer := by
  induction j with
  | done a => rfl
  | call c next ih => exact congrArg (Step.called c :: ·) (ih (answer c))
  | tell e rest ih => exact congrArg (Step.told e :: ·) ih

@[simp] theorem value_inTurn (answer : Call → Answer) (js : List (Job ε α)) :
    (inTurn js).value answer = js.map (·.value answer) := by
  induction js with
  | nil => rfl
  | cons j rest ih => simp [inTurn, ih]

@[simp] theorem steps_inTurn (answer : Call → Answer) (js : List (Job ε α)) :
    (inTurn js).steps answer = js.flatMap (·.steps answer) := by
  induction js with
  | nil => rfl
  | cons j rest ih => simp [inTurn, ih]

end Job
end LintMerge
