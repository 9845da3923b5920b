/-
# The shortest decimal of a floating point number

A number is written with the fewest digits that are read back as it, and of those
with the nearest. The reals that are read as `m · 2^q` form an interval around it
that reaches half way to its neighbours, ends included when `m` is even. On the
grid of the multiples of `10^k` only the two multiples around the number need a
look: if the interval holds a point of the grid, it holds one of the two.
-/

import LintMerge.Number.Binary64

namespace LintMerge
namespace Binary64

/-- A ratio of two numbers. -/
structure Ratio where
  num : Nat
  den : Nat

/-- `10^k / 2^q`. -/
def gridUnit (k q : Int) : Ratio :=
  ⟨Nat.pow 10 k.toNat * twoPow (-q), Nat.pow 10 (-k).toNat * twoPow q⟩

/-- The greatest `e` with `10^e ≤ m · 2^q`, for `m` other than 0. -/
def floorLog10 (m : Nat) (q : Int) : Int :=
  let guess : Int := Int.fdiv ((q + m.log2) * 30103) 100000
  let atMost (e : Int) : Bool :=
    let u := gridUnit e q
    u.num ≤ m * u.den
  if atMost (guess + 1) then guess + 1 else if atMost guess then guess else guess - 1

/-- A multiple of `10^k` that is read back as `m · 2^q`, the nearest one. -/
def onGrid? (m : Nat) (q k : Int) : Option Nat :=
  -- in quarters of the last place of `m`
  let u := gridUnit k (q - 2)
  let low := if m = Nat.pow 2 52 ∧ minExponent < q then 4 * m - 1 else 4 * m - 2
  let high := 4 * m + 2
  let inside (d : Nat) : Bool :=
    if m % 2 = 0 then low * u.den ≤ d * u.num && d * u.num ≤ high * u.den
    else low * u.den < d * u.num && d * u.num < high * u.den
  let below := 4 * m * u.den / u.num
  let above := below + 1
  match inside below, inside above with
  | true, true =>
    let down := 4 * m * u.den - below * u.num
    let up := above * u.num - 4 * m * u.den
    if down < up ∨ (down = up ∧ below % 2 = 0) then some below else some above
  | true, false => some below
  | false, true => some above
  | false, false => none

/-- The decimal on the coarsest grid that has one, `fuel` grids being left. -/
def shortestFrom (m : Nat) (q k : Int) : Nat → Nat × Int
  | 0 => (m, 0)
  | fuel + 1 =>
    match onGrid? m q k with
    | some d => (d, k)
    | none => shortestFrom m q (k - 1) fuel

/-- Digits and exponent of the shortest decimal of `m · 2^q`, for `m` other than 0. -/
def shortest (m : Nat) (q : Int) : Nat × Int := shortestFrom m q (floorLog10 m q) 18

/-- How a decimal is laid out. -/
structure Layout where
  /-- the least decimal exponent that is written positionally -/
  minPositional : Int
  /-- the first decimal exponent that is not -/
  maxPositional : Int
  /-- the least number of digits of a written exponent -/
  exponentDigits : Nat

/-- Positional from `10^-4` to below `10^16`, an exponent of two digits at least. -/
def layout : Layout := ⟨-4, 16, 2⟩

/-- The digits of a number without its trailing zeros, a single zero for 0. -/
def significant (d : Nat) : List Char :=
  let digits := (Nat.toDigits 10 d).reverse.dropWhile (· = '0')
  if digits.isEmpty then ['0'] else digits.reverse

/-- The text of `d · 10^k`. -/
def Layout.write (l : Layout) (d : Nat) (k : Int) : List Char :=
  let e : Int := (Nat.toDigits 10 d).length - 1 + k
  let digits := significant d
  if e < l.minPositional ∨ l.maxPositional ≤ e then
    let tail := digits.tail
    let power := Nat.toDigits 10 e.natAbs
    digits.take 1 ++ (if tail.isEmpty then [] else '.' :: tail) ++
      ['e', if e < 0 then '-' else '+'] ++
      List.replicate (l.exponentDigits - power.length) '0' ++ power
  else if e < 0 then
    ['0', '.'] ++ List.replicate (-e - 1).toNat '0' ++ digits
  else
    let whole := e.toNat + 1
    let front := digits.take whole
    let back := digits.drop whole
    front ++ List.replicate (whole - front.length) '0' ++ ['.'] ++
      (if back.isEmpty then ['0'] else back)

/-- The text of a number. -/
def text : Binary64 → List Char
  | nan => "nan".toList
  | infinite negative => (if negative then ['-'] else []) ++ "inf".toList
  | finite negative m q =>
    (if negative then ['-'] else []) ++
      (if m = 0 then layout.write 0 0
       else
        let (d, k) := shortest m q
        layout.write d k)

end Binary64
end LintMerge
