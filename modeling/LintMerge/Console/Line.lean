/-
# Lines on a console

A tab leads to the next of the stops, eight cells apart. A text that is too wide is
broken between words; a word that is too wide for a line is cut, and the mark `…`
tells that it was, or it goes on on the next line. The lines of `detection_table` are
laid out so.
-/

import LintMerge.Console.Styled
import LintMerge.Text.Width

namespace LintMerge
namespace Console

open Text

/-- The cells between tab stops. -/
def tabStop : Nat := 8

/-- The parts of a line between tabs, with spaces in the place of tabs; the first part
starts at a column. -/
def fillTabs (column : Nat) : List (List Char) → List Char
  | [] => []
  | [part] => part
  | part :: rest =>
    let fill := tabStop - (column + cells part) % tabStop
    part ++ List.replicate fill ' ' ++ fillTabs (column + cells part + fill) rest

/-- A text with spaces in the place of tabs. -/
def expandTabs (s : List Char) : List Char :=
  joinWith ['\n'] ((splitOn '\n' s).map fun line => fillTabs 0 (splitOn '\t' line))

/-- A text as a console shows it. -/
def shown (s : List Char) : List Char := expandTabs (Styled.printable s)

/-- The words of a text, each with the white space after it, the first also with that
before it. -/
def words (s : List Char) : List (List Char) :=
  let blank := s.takeWhile isBlank
  match wordsFrom s.length (s.dropWhile isBlank) with
  | [] => []
  | w :: rest => (blank ++ w) :: rest
where
  /-- The words of a text that starts with one; `fuel` is its length. -/
  wordsFrom : Nat → List Char → List (List Char)
    | 0, _ => []
    | _, [] => []
    | fuel + 1, s =>
      let word := s.takeWhile (!isBlank ·)
      let s := s.dropWhile (!isBlank ·)
      (word ++ s.takeWhile isBlank) :: wordsFrom fuel (s.dropWhile isBlank)

/-- The longest pieces of a text that fit a width. -/
def pieces (width : Nat) : (current : List Char) → (column : Nat) → List Char → List (List Char)
  | current, _, [] => [current.reverse]
  | current, column, c :: rest =>
    if column + cellsOf c > width then current.reverse :: pieces width [c] (cellsOf c) rest
    else pieces width (c :: current) (column + cellsOf c) rest

/-- The lines before the last, the last line and its cells, while a text is broken. -/
structure Broken where
  done : List (List Char) := []
  last : List Char := []
  column : Nat := 0

/-- Closes the last line unless it is empty. -/
def Broken.close (b : Broken) : Broken :=
  if b.last.isEmpty then { b with column := 0 } else { done := b.done ++ [b.last] }

/-- Adds a text to the last line. -/
def Broken.add (b : Broken) (s : List Char) : Broken :=
  { b with last := b.last ++ s, column := b.column + cells s }

/-- Adds a word; one that is too wide for a line is folded, or put on a line of its own. -/
def Broken.addWord (width : Nat) (fold : Bool) (b : Broken) (word : List Char) : Broken :=
  let size := cells (trimEnd word)
  if b.column + size ≤ width then b.add word
  else if size > width ∧ fold then
    (pieces width [] 0 word).foldl (fun b piece => b.close.add piece) b
  else b.close.add word

/-- A line broken into lines of a width. -/
def breakLine (width : Nat) (fold : Bool) (line : List Char) : List (List Char) :=
  let b := (words line).foldl (Broken.addWord width fold) {}
  if (words line).isEmpty then [line] else b.done ++ [b.last]

/-- The longest start of a text of at most some cells; a wide character that would stand
half outside is replaced by a space. -/
def takeCells : Nat → List Char → List Char
  | _, [] => []
  | width, c :: rest =>
    if cellsOf c ≤ width then c :: takeCells (width - cellsOf c) rest
    else if width = 0 then [] else [' ']

/-- A line that is filled up to a width, or cut with the mark that tells so. -/
def fitted (width : Nat) (line : List Char) : List Char :=
  let line := if line.length > width then
      let excess := line.length - width
      let trailing := line.length - (trimEnd line).length
      line.take (line.length - min excess trailing)
    else line
  if cells line > width then
    (if width = 0 then [] else takeCells (width - 1) line ++ ['…'])
  else line ++ List.replicate (width - cells line) ' '

/-- The lines that a text takes at a width, each of that width. -/
def wrap (width : Nat) (fold : Bool) (s : List Char) : List (List Char) :=
  (splitOn '\n' (expandTabs s)).flatMap fun line => (breakLine width fold line).map (fitted width)

end Console
end LintMerge
