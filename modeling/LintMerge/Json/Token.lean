/-
# The small parts of JSON

White space, digits and the four hexadecimal digits of an escape, which the readers of
`load_json_document` and of `Report.from_json` have in common.
-/

import LintMerge.Text.Digit

namespace LintMerge
namespace Json

/-- White space between the tokens of a document. -/
def isSpace (c : Char) : Bool := c = ' ' || c = '\t' || c = '\n' || c = '\r'

/-- What follows the white space. -/
def skip (s : List Char) : List Char := s.dropWhile isSpace

/-- The value of a hexadecimal digit. -/
def hexValue? (c : Char) : Option Nat :=
  if '0' ≤ c ∧ c ≤ '9' then some (c.toNat - 48)
  else if 'a' ≤ c ∧ c ≤ 'f' then some (c.toNat - 87)
  else if 'A' ≤ c ∧ c ≤ 'F' then some (c.toNat - 55)
  else none

/-- The number that four hexadecimal digits stand for, and what follows them. -/
def fourHex? : List Char → Option (Nat × List Char)
  | a :: b :: c :: d :: rest => do
    let a ← hexValue? a
    let b ← hexValue? b
    let c ← hexValue? c
    let d ← hexValue? d
    return (((a * 16 + b) * 16 + c) * 16 + d, rest)
  | _ => none

/-- The ASCII digits at the start of a text. -/
def digits (s : List Char) : List Char := s.takeWhile Text.isAsciiDigit

/-- The number that ASCII digits stand for. -/
def natOf (ds : List Char) : Nat := Text.ofDigits (ds.map fun c => c.toNat - 48)

/-- Whether an exponent is negative, and what follows its sign. -/
def powerSign : List Char → Bool × List Char
  | '-' :: body => (true, body)
  | '+' :: body => (false, body)
  | body => (false, body)

end Json
end LintMerge
