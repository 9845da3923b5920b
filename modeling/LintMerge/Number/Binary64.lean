/-
# Binary floating point numbers of 64 bits

A finite number is `± m · 2^q` with `m < 2^53` and `-1074 ≤ q ≤ 971`, where `m` is
at least `2^52` unless `q = -1074`: every number has one such form, zero two, by
its sign. A decimal is read as the number nearest to it, the one of even `m` when
two are as near, and as an infinity past the largest.
-/

namespace LintMerge

/-- A floating point number of 64 bits. -/
inductive Binary64 where
  | nan
  | infinite (negative : Bool)
  | finite (negative : Bool) (mantissa : Nat) (exponent : Int)
  deriving DecidableEq, Repr, Inhabited

namespace Binary64

/-- The least exponent. -/
def minExponent : Int := -1074

/-- The greatest exponent. -/
def maxExponent : Int := 971

/-- The quotient nearest to `num / den`, the even one of two. -/
def roundDiv (num den : Nat) : Nat :=
  let quotient := num / den
  let rest := num % den
  if den < 2 * rest ∨ (den = 2 * rest ∧ quotient % 2 = 1) then quotient + 1 else quotient

/-- `2^e` for `0 ≤ e`, and 1 below. -/
def twoPow (e : Int) : Nat := Nat.pow 2 e.toNat

/-- The greatest `k` with `2^k ≤ num / den`. -/
def floorLog2 (num den : Nat) : Int :=
  let k : Int := (num.log2 : Int) - den.log2
  if den * twoPow k ≤ num * twoPow (-k) then k else k - 1

/-- The number nearest to `num / den`. -/
def ofRatio (negative : Bool) (num den : Nat) : Binary64 :=
  if num = 0 then finite negative 0 minExponent
  else
    let q := max (floorLog2 num den - 52) minExponent
    let m := roundDiv (num * twoPow (-q)) (den * twoPow q)
    let (m, q) := if m = Nat.pow 2 53 then (Nat.pow 2 52, q + 1) else (m, q)
    if maxExponent < q then infinite negative else finite negative m q

/-- The number nearest to `digits · 10^e`. -/
def ofDecimal (negative : Bool) (digits : Nat) (e : Int) : Binary64 :=
  if digits = 0 then finite negative 0 minExponent
  else if 400 < e then infinite negative
  else if e < -400 - (digits.log2 : Int) then finite negative 0 minExponent
  else ofRatio negative (digits * Nat.pow 10 e.toNat) (Nat.pow 10 (-e).toNat)

/-- The integer that a number is, none for a fraction, an infinity or no number. -/
def toInt? : Binary64 → Option Int
  | nan => none
  | infinite _ => none
  | finite negative m q =>
    let magnitude? : Option Nat :=
      if 0 ≤ q then some (m * twoPow q)
      else if m % twoPow (-q) = 0 then some (m / twoPow (-q))
      else none
    magnitude?.map fun n => if negative then -(n : Int) else n

/-- Whether a number is neither an infinity nor no number. -/
def isFinite : Binary64 → Bool
  | finite .. => true
  | _ => false

end Binary64
end LintMerge
