/-
# Tokens of scripts

A script is cut into words and operators. A word ends at a blank, at the end of a
line and at a character of an operator, unless quotes hold it together.
-/

import LintMerge.Shell.Script

namespace LintMerge
namespace Shell

/-- A token, a word with the number of its line. -/
inductive Token where
  | word (line : Nat) (w : Word)
  /-- a number right before a redirection -/
  | stream (n : Nat)
  | operator (s : String)
  | newline
  deriving DecidableEq, Repr

/-- Whether a character ends a word. -/
def endsWord (c : Char) : Bool := c ∈ " \t\n;&|()<>".toList

/-- The characters that name values kept by the shell itself. -/
def specialNames : List Char := "@*#?$!".toList

/-- The text before two closing brackets, and the rest. -/
def untilBrackets? : List Char → Option (List Char × List Char)
  | [] => none
  | ')' :: ')' :: rest => some ([], rest)
  | c :: rest => (untilBrackets? rest).map fun (s, more) => (c :: s, more)

/-- The part after a dollar sign, and the rest. -/
def afterDollar? (isQuoted : Bool) (s : List Char) : Option (Part × List Char) :=
  match s with
  | '(' :: '(' :: rest => (untilBrackets? rest).map fun (e, more) => (.sum e isQuoted, more)
  | '(' :: _ => none
  | '\x7b' :: rest =>
    let name := rest.takeWhile (· ≠ '\x7d')
    if isName name ∨ name.all Char.isDigit ∧ name ≠ [] ∨ name.length = 1 ∧ name.all (· ∈ specialNames) then
      some (.value (String.ofList name) isQuoted, rest.drop (name.length + 1))
    else none
  | c :: rest =>
    if c.isDigit ∨ c ∈ specialNames then some (.value (String.singleton c) isQuoted, rest)
    else
      let name := s.takeWhile fun d => d.isAlphanum || d = '_'
      if name.isEmpty then some (.text ['$'] isQuoted, s)
      else some (.value (String.ofList name) isQuoted, s.drop name.length)
  | [] => some (.text ['$'] isQuoted, [])

/-- The parts up to a closing double quote, and the rest; `fuel` is the length. -/
def doubleQuoted? : (fuel : Nat) → List Char → Option (List Part × List Char)
  | 0, _ => none
  | _, [] => none
  | _, '"' :: rest => some ([], rest)
  | fuel + 1, '\\' :: c :: rest =>
    let part := if c = '\n' then [] else if c ∈ "$\"\\".toList then [c] else ['\\', c]
    (doubleQuoted? fuel rest).map fun (ps, more) => (.text part true :: ps, more)
  | fuel + 1, '$' :: rest => do
    let (p, rest) ← afterDollar? true rest
    let (ps, more) ← doubleQuoted? fuel rest
    return (p :: ps, more)
  | fuel + 1, c :: rest => (doubleQuoted? fuel rest).map fun (ps, more) => (.text [c] true :: ps, more)

/-- The parts of a word, and the rest; `fuel` is the length. -/
def word? : (fuel : Nat) → List Char → Option (Word × List Char)
  | 0, _ => none
  | _, [] => some ([], [])
  | fuel + 1, '\x27' :: rest => do
    let inside := rest.takeWhile (· ≠ '\x27')
    guard (inside.length < rest.length)
    let (ps, more) ← word? fuel (rest.drop (inside.length + 1))
    return (.text inside true :: ps, more)
  | fuel + 1, '"' :: rest => do
    let (inside, rest) ← doubleQuoted? (rest.length + 1) rest
    let (ps, more) ← word? fuel rest
    return (.text [] true :: inside ++ ps, more)
  | fuel + 1, '\\' :: '\n' :: rest => word? fuel rest
  | fuel + 1, '\\' :: c :: rest => (word? fuel rest).map fun (ps, more) => (.text [c] true :: ps, more)
  | fuel + 1, '$' :: rest => do
    let (p, rest) ← afterDollar? false rest
    let (ps, more) ← word? fuel rest
    return (p :: ps, more)
  | fuel + 1, c :: rest =>
    if endsWord c then some ([], c :: rest)
    else (word? fuel rest).map fun (ps, more) => (.text [c] false :: ps, more)

/-- A word in which texts side by side are one. -/
def merged : Word → Word
  | .text s q :: rest =>
    match merged rest with
    | .text t q' :: more => if q = q' then .text (s ++ t) q :: more else .text s q :: .text t q' :: more
    | more => .text s q :: more
  | p :: rest => p :: merged rest
  | [] => []

/-- The operators, the longer ones first. -/
def operators : List String := ["&&", "||", ";;", ">>", ">&", "<&", ";", "&", "|", "(", ")", "<", ">"]

/-- The tokens of a script from a line on; `fuel` is the length. -/
def tokens? : (fuel line : Nat) → List Char → Option (List Token)
  | 0, _, _ => none
  | _, _, [] => some []
  | fuel + 1, line, c :: rest =>
    if c.isDigit ∧ rest.head? = some '>' then (tokens? fuel line rest).map (.stream (c.toNat - 48) :: ·)
    else if c = '\n' then (tokens? fuel (line + 1) rest).map (.newline :: ·)
    else if c = ' ' ∨ c = '\t' then tokens? fuel line rest
    else if c = '#' then tokens? fuel line (rest.dropWhile (· ≠ '\n'))
    else
      match operators.find? fun o => o.toList.isPrefixOf (c :: rest) with
      | some o => (tokens? fuel line ((c :: rest).drop o.length)).map (.operator o :: ·)
      | none => do
        let (w, more) ← word? (rest.length + 2) (c :: rest)
        let read := (c :: rest).take (rest.length + 1 - more.length)
        let ts ← tokens? fuel (line + read.countP (· = '\n')) more
        return .word line (merged w) :: ts

/-- The tokens of a script. -/
def tokens (s : List Char) : Option (List Token) := tokens? (s.length + 1) 1 s

end Shell
end LintMerge
