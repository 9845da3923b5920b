/-
# Glob patterns of version control

A line is a pattern in the syntax of the files that tell a version control system
what to ignore. `!` at its start makes it include again what others exclude. `*`
stands for any characters but the slash, `?` for one, `[a-z]` for one of some, and
a segment `**` for any number of segments. A slash at the start or inside anchors a
pattern at the root, one at the end restricts it to directories and what is below.

A line without content is no pattern; one that is left without segments or in
which a backslash has nothing to escape is refused (`build_spec`).
-/

import LintMerge.Text.Blank

namespace LintMerge
namespace Glob

/-- A part of a segment. -/
inductive Piece where
  /-- the character itself -/
  | char (c : Char)
  /-- any character but the slash -/
  | one
  /-- any number of characters but the slash -/
  | many
  /-- a character in one of some ranges, or in none of them -/
  | oneOf (negated : Bool) (ranges : List (Char × Char))
  deriving DecidableEq, Repr

/-- A part of a pattern between slashes. -/
inductive Segment where
  /-- any number of segments -/
  | deep
  /-- one segment, whatever its name -/
  | any
  | name (pieces : List Piece)
  deriving DecidableEq, Repr

/-- A pattern. -/
structure Pattern where
  /-- whether it includes again what others exclude -/
  negated : Bool
  /-- whether it is for directories only -/
  directory : Bool
  segments : List Segment
  deriving DecidableEq, Repr

/-- The ranges in the brackets of a class. -/
def ranges : List Char → List (Char × Char)
  | [] => []
  | a :: '-' :: b :: rest => (a, b) :: ranges rest
  | a :: rest => (a, a) :: ranges rest

/-- The class after an opening bracket, if it is closed, and what follows it. -/
def class? (s : List Char) : Option (Piece × List Char) :=
  let (negated, s) :=
    match s with
    | '!' :: rest => (true, rest)
    | '^' :: rest => (true, rest)
    | rest => (false, rest)
  let (first, s) :=
    match s with
    | ']' :: rest => ([']'], rest)
    | rest => ([], rest)
  let inner := s.takeWhile (· ≠ ']')
  match s.drop inner.length with
  | ']' :: rest => some (.oneOf negated (ranges (first ++ inner)), rest)
  | _ => none

/-- The parts of a segment, none if a backslash ends it; `fuel` parts at most. -/
def piecesFrom : Nat → List Char → Option (List Piece)
  | 0, _ => some []
  | fuel + 1, s =>
    match s with
    | [] => some []
    | ['\\'] => none
    | '\\' :: c :: rest => (piecesFrom fuel rest).map (.char c :: ·)
    | '*' :: rest => (piecesFrom fuel rest).map (.many :: ·)
    | '?' :: rest => (piecesFrom fuel rest).map (.one :: ·)
    | '[' :: rest =>
      match class? rest with
      | some (piece, rest) => (piecesFrom fuel rest).map (piece :: ·)
      | none => (piecesFrom fuel rest).map (.char '[' :: ·)
    | c :: rest => (piecesFrom fuel rest).map (.char c :: ·)

/-- The segment that a text between slashes is. -/
def segment? (s : List Char) : Option Segment :=
  if s = ['*', '*'] then some .deep
  else if s = ['*'] then some .any
  else (piecesFrom s.length s).map .name

/-- Segments in which no `**` follows another. -/
def collapseDeep : List (List Char) → List (List Char)
  | ['*', '*'] :: ['*', '*'] :: rest => collapseDeep (['*', '*'] :: rest)
  | s :: rest => s :: collapseDeep rest
  | [] => []

/-- Segments in which the last is `**` if it was empty and not the only one. -/
def closeDeep : List (List Char) → List (List Char)
  | [] => []
  | [s] => [s]
  | s :: rest => s :: (rest.dropLast ++ rest.getLast?.toList.map fun t => if t.isEmpty then ['*', '*'] else t)

/-- A line without the white space at its end, unless the last blank is escaped. -/
def trimLine (s : List Char) : List Char :=
  match s.reverse with
  | ' ' :: '\\' :: _ => s
  | _ => Text.trimEnd s

/-- The texts between slashes of a pattern, without those that only anchor it. -/
def anchored : List (List Char) → List (List Char)
  | [] :: rest => rest
  | [s] => if s = ['*', '*'] then [s] else [['*', '*'], s]
  | [s, []] => if s = ['*', '*'] then [s, []] else [['*', '*'], s, []]
  | ss => ss

/-- Whether `!` stands at the start of a line, and what stands after it. -/
def unmarked : List Char → Bool × List Char
  | '!' :: rest => (true, rest)
  | s => (false, s)

/-- The pattern of a line, none for a line that is no pattern; refused with the line. -/
def Pattern.ofLine (line : String) : Except String (Option Pattern) :=
  let s := trimLine line.toList
  match s with
  | [] => .ok none
  | '#' :: _ => .ok none
  | ['/'] => .ok none
  | _ =>
    let (negated, body) := unmarked s
    let texts := Text.splitOn '/' body
    let directory := texts.getLast? = some []
    match collapseDeep (closeDeep (anchored texts)) with
    | [] => .error line
    | texts =>
      match texts.mapM segment? with
      | none => .error line
      | some segments => .ok (some ⟨negated, directory, segments⟩)

end Glob
end LintMerge
