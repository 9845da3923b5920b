/-
# Faults found in data

Data that comes from outside is checked against what a field of a record may hold
(`model_validate`). All faults of a record are found, not only the first: each says where in the
data it lies and what is wrong there. A check that finds no fault gives a value.
-/

import LintMerge.Value

namespace LintMerge
namespace Check

/-- A step into data: to the entry of a key or to an item of a list. -/
inductive Step where
  | key (name : String)
  | index (n : Nat)
  deriving DecidableEq, Repr

/-- The text of a step. -/
def Step.text : Step → String
  | key name => name
  | index n => toString n

/-- What is wrong at a place. -/
inductive Problem where
  /-- a field that has to be there is not -/
  | missing
  /-- a field that no record of the kind has -/
  | unexpected
  | notInteger
  | notWhole
  | notIntegerText
  | tooLongInteger
  | notFinite
  | notAbove (bound : Int)
  | below (bound : Int)
  | notText
  | emptyText
  /-- a text with halves of pairs, where one has to be looked into -/
  | notUnicode
  | notTruth
  | unclearTruth
  /-- not one of the names of a fixed list -/
  | notNamed (names : List String)
  /-- not one of the levels of a scale -/
  | notLevel (names : List String)
  | notSequence
  | notArray
  | notRecord (kind : String)
  | notObject
  | notTable
  | notPath
  | notMoment
  /-- a number that stands for no point in time -/
  | badInstant (cause : String)
  /-- a text that stands for no point in time -/
  | badMoment (cause : String)
  /-- a rule of the record is broken -/
  | broken (rule : String)
  /-- the text that should hold the data cannot be read -/
  | unreadable (message : String)
  deriving DecidableEq, Repr

/-- Names between quotes, the last after `or`. -/
def choices : List String → String
  | [] => ""
  | [a] => s!"'{a}'"
  | [a, b] => s!"'{a}' or '{b}'"
  | a :: rest => s!"'{a}', " ++ choices rest

/-- What is said of a problem. -/
def Problem.message : Problem → String
  | missing => "Field required"
  | unexpected => "Extra inputs are not permitted"
  | notInteger => "Input should be a valid integer"
  | notWhole => "Input should be a valid integer, got a number with a fractional part"
  | notIntegerText => "Input should be a valid integer, unable to parse string as an integer"
  | tooLongInteger => "Unable to parse input string as an integer, exceeded maximum size"
  | notFinite => "Input should be a finite number"
  | notAbove bound => s!"Input should be greater than {bound}"
  | below bound => s!"Input should be greater than or equal to {bound}"
  | notText => "Input should be a valid string"
  | emptyText => "String should have at least 1 character"
  | notUnicode => "Input should be a valid string, unable to parse raw data as a unicode string"
  | notTruth => "Input should be a valid boolean"
  | unclearTruth => "Input should be a valid boolean, unable to interpret input"
  | notNamed names => "Input should be " ++ choices names
  | notLevel names => "Input should be " ++ choices names
  | notSequence => "Input should be a valid tuple"
  | notArray => "Input should be a valid array"
  | notRecord kind => s!"Input should be a valid dictionary or instance of {kind}"
  | notObject => "Input should be an object"
  | notTable => "Input should be a valid dictionary"
  | notPath => "Input is not a valid path for <class 'pathlib.Path'>"
  | notMoment => "Input should be a valid datetime"
  | badInstant cause => s!"Input should be a valid datetime, {cause}"
  | badMoment cause => s!"Input should be a valid datetime or date, {cause}"
  | broken rule => s!"Value error, {rule}"
  | unreadable message => message

/-- A problem and its place. -/
structure Fault where
  place : List Step
  problem : Problem
  deriving DecidableEq, Repr

/-- A fault of a part, seen from the whole. -/
def Fault.under (step : Step) (f : Fault) : Fault := ⟨step :: f.place, f.problem⟩

/-- What is said of a fault: its place, `<root>` for the whole, and the problem. -/
def Fault.message (f : Fault) : String :=
  let place := if f.place.isEmpty then "<root>" else ".".intercalate (f.place.map Step.text)
  s!"{place}: {f.problem.message}"

end Check

/-- The outcome of a check: a value, or one fault at least. -/
inductive Checked (α : Type) where
  | ok (value : α)
  | refused (first : Check.Fault) (rest : List Check.Fault)
  deriving Repr

namespace Checked

variable {α β : Type}

/-- Refuses for a problem of the whole. -/
def refuse (problem : Check.Problem) : Checked α := refused ⟨[], problem⟩ []

/-- The faults found. -/
def faults : Checked α → List Check.Fault
  | ok _ => []
  | refused first rest => first :: rest

/-- The value, if there is no fault. -/
def value? : Checked α → Option α
  | ok a => some a
  | refused .. => none

/-- The outcome with its value changed. -/
def map (f : α → β) : Checked α → Checked β
  | ok a => ok (f a)
  | refused first rest => refused first rest

/-- The outcome of two checks: the faults of the first come first. -/
def and (f : Checked (α → β)) (x : Checked α) : Checked β :=
  match f, x with
  | ok f, ok a => ok (f a)
  | ok _, refused first rest => refused first rest
  | refused first rest, x => refused first (rest ++ x.faults)

instance : Applicative Checked where
  pure := ok
  map := map
  seq f x := f.and (x ())

/-- The outcome with further faults after its own. -/
def also (x : Checked α) (more : List Check.Fault) : Checked α :=
  match x, more with
  | ok a, [] => ok a
  | ok _, first :: rest => refused first rest
  | refused first rest, more => refused first (rest ++ more)

/-- A check of the value of another. -/
def andThen (x : Checked α) (f : α → Checked β) : Checked β :=
  match x with
  | ok a => f a
  | refused first rest => refused first rest

/-- The outcome of a part, seen from the whole. -/
def under (step : Check.Step) : Checked α → Checked α
  | ok a => ok a
  | refused first rest => refused (first.under step) (rest.map (·.under step))

/-- The outcome of a check of each item from the `n`th on. -/
def itemsFrom (check : Value → Checked α) (n : Nat) : List Value → Checked (List α)
  | [] => ok []
  | v :: rest => List.cons <$> (check v).under (.index n) <*> itemsFrom check (n + 1) rest

/-- The outcome of a check of each item. -/
def items (check : Value → Checked α) (vs : List Value) : Checked (List α) :=
  itemsFrom check 0 vs

theorem faults_eq_nil_iff (x : Checked α) : x.faults = [] ↔ ∃ a, x = ok a := by
  cases x <;> simp [faults]

@[simp] theorem faults_and (f : Checked (α → β)) (x : Checked α) :
    (f.and x).faults = f.faults ++ x.faults := by
  cases f <;> cases x <;> simp [and, faults]

end Checked
end LintMerge
