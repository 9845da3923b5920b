/-
# Decimal digits and written integers

A decimal digit is a character of the Unicode category `Nd`; the ten digits of a
script follow each other, so a script is given by the code point of its zero.

An integer is written as an optional sign and digits, of any scripts, with at
most one underscore between two of them. Numbers of more than `maxDigits` digits
are refused: reading and writing them takes time that grows with the square of
their length.
-/

import LintMerge.Text.Blank

namespace LintMerge
namespace Text

/-- The code points of the digits zero, script by script. -/
def digitZeros : List Nat := [
  48, 1632, 1776, 1984, 2406, 2534, 2662, 2790, 2918, 3046, 3174, 3302, 3430, 3558, 3664, 3792,
  3872, 4160, 4240, 6112, 6160, 6470, 6608, 6784, 6800, 6992, 7088, 7232, 7248, 42528, 43216,
  43264, 43472, 43504, 43600, 44016, 65296, 66720, 68912, 69734, 69872, 69942, 70096, 70384,
  70736, 70864, 71248, 71360, 71472, 71904, 72016, 72784, 73040, 73120, 92768, 92864, 93008,
  120782, 120792, 120802, 120812, 120822, 123200, 123632, 125264, 130032
]

/-- The value of a decimal digit. -/
def digitValue? (c : Char) : Option Nat :=
  let n := c.toNat
  if n < 128 then
    if 48 ≤ n ∧ n ≤ 57 then some (n - 48) else none
  else
    (digitZeros.find? fun z => z ≤ n && n ≤ z + 9).map (n - ·)

/-- Whether a character is a decimal digit of some script. -/
def isDigit (c : Char) : Bool := (digitValue? c).isSome

/-- Whether a character is one of the ASCII digits. -/
def isAsciiDigit (c : Char) : Bool := '0' ≤ c && c ≤ '9'

/-- The number that a row of digits stands for. -/
def ofDigits (ds : List Nat) : Nat := ds.foldl (fun n d => 10 * n + d) 0

/-- The most digits an integer may be written with. -/
def maxDigits : Nat := 4300

/-- What is said of an integer that is written with too many digits. -/
def tooManyDigits (count : Nat) : String :=
  s!"Exceeds the limit ({maxDigits} digits) for integer string conversion: value has {count} digits; use sys.set_int_max_str_digits() to increase the limit"

/-- The digits of a row in which single underscores may stand between digits. -/
def digitRow : List Char → Option (List Nat)
  | [] => none
  | [c] => (digitValue? c).map ([·])
  | c :: '_' :: rest => do return (← digitValue? c) :: (← digitRow rest)
  | c :: rest => do return (← digitValue? c) :: (← digitRow rest)

/-- A written integer with white space around it. -/
def readInt? (s : List Char) : Option Int :=
  let (negative, body) :=
    match trim s with
    | '-' :: rest => (true, rest)
    | '+' :: rest => (false, rest)
    | rest => (false, rest)
  match digitRow body with
  | none => none
  | some ds =>
    if ds.length > maxDigits then none
    else if negative then some (-(ofDigits ds : Int)) else some (ofDigits ds)

end Text
end LintMerge
