/-
# Tables on a console

A table has a line of headings, a rule and a line for each row. Each cell has a
space on either side, and a space stands between columns. A table that is too wide
is narrowed column by column, the widest ones first, and its cells are wrapped.
-/

import LintMerge.Console.Line

namespace LintMerge
namespace Console

open Text

/-- A column of a table: its heading and its cells. -/
structure Column where
  heading : List Char
  cells : List (List Char)
  deriving Repr

namespace Table

/-- The cells that a text takes when it is not wrapped. -/
def fullWidth (s : List Char) : Nat := ((lines s).map cells).foldl max 0

/-- The width of a column with a space on either side. -/
def columnWidth (c : Column) : Nat := ((c.heading :: c.cells).map fullWidth).foldl max 0 + 2

/-- A quotient rounded to the nearest whole number, a half to the even one. -/
def roundDiv (n d : Nat) : Nat :=
  let q := n / d
  let r := n % d
  if 2 * r < d then q else if d < 2 * r then q + 1 else if q % 2 = 0 then q else q + 1

/-- What widths add up to. -/
def sumOf (ws : List Nat) : Nat := ws.foldr (· + ·) 0

/-- Widths from which an excess is taken in equal shares, each share at most as wide as
its limit; a limit of zero exempts a width. -/
def takeShares (excess sharers : Nat) : List (Nat × Nat) → List Nat
  | [] => []
  | (w, 0) :: rest => w :: takeShares excess sharers rest
  | (w, limit) :: rest =>
    let share := min limit (roundDiv excess sharers)
    (w - share) :: takeShares (excess - share) (sharers - 1) rest

/-- Widths with an excess taken from those that have a limit. -/
def reduce (excess : Nat) (ws : List (Nat × Nat)) : List Nat :=
  takeShares excess (ws.countP fun w => w.2 ≠ 0) ws

/-- Widths narrowed to a total, the widest ones first, as far as they differ; `fuel` is
the excess. -/
def narrow (total : Nat) : (fuel : Nat) → List Nat → List Nat
  | 0, ws => ws
  | fuel + 1, ws =>
    let excess := sumOf ws - total
    let widest := ws.foldl max 0
    let second := (ws.filter (· ≠ widest)).foldl max 0
    if excess = 0 ∨ widest = second then ws
    else narrow total fuel (reduce excess (ws.map fun w =>
      (w, if w = widest then min excess (widest - second) else 0)))

/-- The widths of columns that fit a total. -/
def widths (total : Nat) (cs : List Column) : List Nat :=
  let ws := cs.map columnWidth
  let ws := narrow total (sumOf ws - total) ws
  if sumOf ws ≤ total then ws else reduce (sumOf ws - total) (ws.map fun w => (w, w))

/-- The lines of a cell. -/
def cellLines (width : Nat) (s : List Char) : List (List Char) :=
  (wrap (width - 2) false s).map fun line => takeCells width (' ' :: line ++ [' '])

/-- Lines filled up to a height, at the start or at the end. -/
def raised (atStart : Bool) (height width : Nat) (ls : List (List Char)) : List (List Char) :=
  let blank := List.replicate (height - ls.length) (List.replicate width ' ')
  if atStart then blank ++ ls else ls ++ blank

/-- Cells side by side, line by line. -/
def beside : List (List (List Char)) → Nat → List (List Char)
  | _, 0 => []
  | cellsOfRow, height + 1 =>
    joinWith [' '] (cellsOfRow.map fun ls => ls.headD []) :: beside (cellsOfRow.map List.tail) height

/-- The lines of a row. -/
def rowLines (heading : Bool) (ws : List Nat) (row : List (List Char)) : List (List Char) :=
  let found := (ws.zip row).map fun (w, s) => (w, cellLines w s)
  let height := (found.map fun f => f.2.length).foldl max 1
  beside (found.map fun (w, ls) => raised heading height w ls) height

/-- The rows of columns. -/
def rows : (count : Nat) → List (List (List Char)) → List (List (List Char))
  | 0, _ => []
  | count + 1, columns => columns.map (·.headD []) :: rows count (columns.map List.tail)

/-- The lines of a table on a console of a width. -/
def render (width : Nat) (cs : List Column) : List (List Char) :=
  let gaps := cs.length - 1
  let ws := widths (width - gaps) cs
  let body := rows ((cs.map fun c => c.cells.length).foldl max 0) (cs.map Column.cells)
  (rowLines true ws (cs.map Column.heading) ++
    [List.replicate (sumOf ws + gaps) '─'] ++
    body.flatMap (rowLines false ws)).map (takeCells width)

end Table
end Console
end LintMerge
