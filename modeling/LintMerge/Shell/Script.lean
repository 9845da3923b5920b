/-
# Scripts

A script is a list of commands. Words of a command hold variables and sums that are
put in when the command runs; what is between quotes is never split into fields.
-/

namespace LintMerge
namespace Shell

/-- A part of a word. -/
inductive Part where
  | text (s : List Char) (isQuoted : Bool)
  | value (name : String) (isQuoted : Bool)
  /-- a sum of integers -/
  | sum (expression : List Char) (isQuoted : Bool)
  deriving DecidableEq, Repr

/-- A word: its parts, side by side. -/
abbrev Word := List Part

/-- A change of where a stream leads; 0 is the input, which is always empty, 1 the output
and 2 the stream of errors. -/
inductive Redirection where
  /-- to where another stream leads -/
  | onto (stream other : Nat)
  /-- to nowhere -/
  | away (stream : Nat)
  deriving DecidableEq, Repr

/-- A command. -/
inductive Command where
  | simple (line : Nat) (settings : List (String × Word)) (words : List Word)
      (redirections : List Redirection)
  /-- the first branch whose condition holds -/
  | branch (clauses : List (List Command × List Command)) (otherwise : List Command)
  /-- a body repeated while its condition comes out as expected -/
  | loop (condition body : List Command) (expected : Bool)
  /-- a body repeated for each word, or for each argument -/
  | each (name : String) (items : Option (List Word)) (body : List Command)
  /-- the body of the first clause that has a pattern for a word -/
  | choice (subject : Word) (clauses : List (List Word × List Command))
  | group (body : List Command)
  /-- a body that changes nothing in the shell around it -/
  | apart (body : List Command)
  | redirected (c : Command) (redirections : List Redirection)
  | both (first second : Command)
  | either (first second : Command)
  | negation (c : Command)
  deriving Inhabited, Repr

/-- The text of a word that holds nothing else and no quotes. -/
def literal? : Word → Option String
  | [.text s false] => some (String.ofList s)
  | _ => none

/-- Whether a text is a name of a variable. -/
def isName : List Char → Bool
  | [] => false
  | c :: rest => (c.isAlpha || c = '_') && rest.all fun d => d.isAlphanum || d = '_'

end Shell
end LintMerge
