/-
# The state of a running shell

What a script can change: its variables, its arguments, the folder it is in, the
status of its last command, and what it has printed. Time passes only while it
sleeps.
-/

import LintMerge.Shell.Arithmetic
import LintMerge.Shell.Builtin
import LintMerge.Shell.Script
import LintMerge.Tree.Basic

namespace LintMerge
namespace Shell

/-- A variable; one that is exported is seen by other programs. -/
structure Variable where
  name : String
  value : List Char
  exported : Bool
  deriving Repr

/-- Where the output and the stream of errors lead: 1 is what is read of the output, 2
what is read of the errors, and none is nowhere. -/
structure Places where
  out : Option Nat := some 1
  err : Option Nat := some 2
  deriving Repr

/-- The places after a redirection. -/
def Places.after (p : Places) : Redirection → Places
  | .onto 1 2 => { p with out := p.err }
  | .onto 2 1 => { p with err := p.out }
  | .onto .. => p
  | .away 1 => { p with out := none }
  | .away 2 => { p with err := none }
  | .away _ => p

/-- A running shell. -/
structure Machine where
  tree : Tree
  /-- the name it was started under -/
  name : String
  args : List (List Char) := []
  vars : List Variable := []
  cwd : Path
  status : Nat := 0
  /-- the milliseconds that have passed -/
  clock : Nat := 0
  /-- the milliseconds after which it is stopped -/
  limit : Nat
  /-- where its streams lead -/
  places : Places := {}
  /-- pieces of the output, the last one first -/
  out : List (List UInt8) := []
  /-- pieces of the stream of errors, the last one first -/
  err : List (List UInt8) := []

/-- How a program ends. -/
inductive Ending where
  | exited (code : Nat)
  | killed (signal : Nat)
  | outOfTime
  deriving DecidableEq, Repr

namespace Machine

/-- The number under which a shell knows itself. -/
def ownId : String := "4242"

/-- The value of a variable, empty when it is not set. -/
def lookUp (m : Machine) (name : String) : List Char :=
  ((m.vars.find? fun v => v.name = name).map Variable.value).getD []

/-- A shell with a variable set. -/
def set (m : Machine) (name : String) (value : List Char) (exported : Bool := false) : Machine :=
  let was := m.vars.any fun v => v.name = name && v.exported
  { m with vars := ⟨name, value, was || exported⟩ :: m.vars.filter fun v => v.name ≠ name }

/-- A shell without a variable. -/
def unset (m : Machine) (name : String) : Machine :=
  { m with vars := m.vars.filter fun v => v.name ≠ name }

/-- A shell with octets added at a place. -/
def put (m : Machine) (place : Option Nat) (octets : List UInt8) : Machine :=
  if octets.isEmpty then m
  else
    match place with
    | some 1 => { m with out := octets :: m.out }
    | some _ => { m with err := octets :: m.err }
    | none => m

/-- A shell that has printed some octets. -/
def print (m : Machine) (octets : List UInt8) : Machine := m.put m.places.out octets

/-- A shell that has printed some octets to the stream of errors. -/
def complain (m : Machine) (octets : List UInt8) : Machine := m.put m.places.err octets

/-- A shell that reports an error of a line. -/
def complainAt (m : Machine) (line : Nat) (text : String) : Machine :=
  m.complain (Builtin.octets s!"{m.name}: {line}: {text}\n".toList)

/-- The value that a name stands for. -/
def valueOf (m : Machine) (name : String) : List Char :=
  match name with
  | "@" | "*" => Builtin.spaced m.args
  | "#" => (toString m.args.length).toList
  | "?" => (toString m.status).toList
  | "$" => ownId.toList
  | "!" => []
  | "0" => m.name.toList
  | "PWD" => m.cwd.text.toList
  | name =>
    match name.toNat? with
    | some n => (m.args[n - 1]?).getD []
    | none => m.lookUp name

/-- The value of a sum. -/
def sumOf (m : Machine) (expression : List Char) : List Char :=
  match Arithmetic.value? m.valueOf expression with
  | some n => (toString n).toList
  | none => []

/-- A word as one text. -/
def textOf (m : Machine) (w : Word) : List Char :=
  w.flatMap fun
    | .text s _ => s
    | .value name _ => m.valueOf name
    | .sum e _ => m.sumOf e

/-- An element of a pattern. -/
inductive Wild where
  | char (c : Char)
  | one
  | many
  deriving DecidableEq, Repr

/-- The elements of a text in which `?` and `*` stand for any characters. -/
def wilds (s : List Char) : List Wild :=
  s.map fun c => if c = '*' then .many else if c = '?' then .one else .char c

/-- Whether a pattern fits a whole text. -/
def fits : List Wild → List Char → Bool
  | [], s => s.isEmpty
  | .char a :: p, c :: s => a = c && fits p s
  | .one :: p, _ :: s => fits p s
  | .many :: p, [] => fits p []
  | .many :: p, c :: s => fits p (c :: s) || fits (.many :: p) s
  | _, [] => false
termination_by p s => p.length + s.length

/-- A word as a pattern; what is quoted stands for itself. -/
def patternOf (m : Machine) (w : Word) : List Wild :=
  w.flatMap fun
    | .text s true => s.map .char
    | .text s false => wilds s
    | .value name true => (m.valueOf name).map .char
    | .value name false => wilds (m.valueOf name)
    | .sum e _ => (m.sumOf e).map .char

/-- The fields before the last, and the last one if there is one. -/
structure Fields where
  done : List (List Char) := []
  last : Option (List Char) := none

namespace Fields

/-- Fields with a text added to the last one. -/
def add (f : Fields) (s : List Char) : Fields := { f with last := some (f.last.getD [] ++ s) }

/-- Fields with the last one closed. -/
def close (f : Fields) : Fields := { done := f.done ++ f.last.toList }

/-- Fields with a text that blanks split; it starts with an open field if it does not
start with a blank. -/
def split (f : Fields) : List Char → Fields
  | [] => f
  | c :: rest => split (if Arithmetic.isSpace c then f.close else f.add [c]) rest

/-- Fields with a text for each of some values. -/
def each (f : Fields) : List (List Char) → Fields
  | [] => if f.last = some [] then { f with last := none } else f
  | [a] => f.add a
  | a :: rest => each (f.add a).close rest

/-- All fields. -/
def all (f : Fields) : List (List Char) := f.close.done

end Fields

/-- The fields of a word. -/
def fieldsOf (m : Machine) (w : Word) : List (List Char) :=
  (w.foldl (fun f p =>
    match p with
    | .text s _ => f.add s
    | .value "@" true => f.each m.args
    | .value name true => f.add (m.valueOf name)
    | .value name false => f.split (m.valueOf name)
    | .sum e _ => f.add (m.sumOf e)) ({} : Fields)).all

/-- Whether a file is as a letter asks: there, a file, a folder, one that can be run, or
one with content. -/
def fileIs (m : Machine) (letter : Char) (name : List Char) : Bool :=
  let p := m.cwd.join (Path.ofText (String.ofList name))
  match letter with
  | 'f' => m.tree.isFile p
  | 'd' => m.tree.isFolder p
  | 'x' => m.tree.isProgram p || m.tree.isFolder p
  | 's' => ((m.tree.read? p).map fun octets => !octets.isEmpty).getD (m.tree.isFolder p)
  | _ => m.tree.holds p

end Machine

/-- What a builtin prints, and its status. -/
structure Effect where
  out : List UInt8 := []
  err : List UInt8 := []
  status : Nat := 0

/-- The effect of a builtin that only prints or tests. -/
def effect? (m : Machine) (line : Nat) (name : String) (args : List (List Char)) : Option Effect :=
  match name with
  | ":" | "true" => some {}
  | "false" => some { status := 1 }
  | "echo" => some { out := Builtin.echo args }
  | "printf" =>
    match args with
    | [] => some { err := Builtin.octets s!"{m.name}: {line}: printf: usage: printf format [arg ...]\n".toList, status := 2 }
    | text :: args => some { out := Builtin.printf (args.length + 1) text args }
  | "pwd" => some { out := Builtin.octets (m.cwd.text ++ "\n").toList }
  | "test" => some (ofTest (Builtin.test? m.fileIs args))
  | "[" =>
    if args.getLast? = some [']'] then some (ofTest (Builtin.test? m.fileIs args.dropLast))
    else some { err := Builtin.octets s!"{m.name}: {line}: [: missing ]\n".toList, status := 2 }
  | _ => none
where
  /-- The effect of a test. -/
  ofTest : Option Bool → Effect
    | some true => {}
    | some false => { status := 1 }
    | none => { status := 2 }

end Shell
end LintMerge
