/-
# Sums in scripts

Integers, variables, the four operations, remainders, comparisons and brackets. A
comparison gives 1 or 0; a variable that is no number counts as 0.
-/

namespace LintMerge
namespace Shell
namespace Arithmetic

/-- Whether a character is a blank of a sum. -/
def isSpace (c : Char) : Bool := c = ' ' || c = '\t' || c = '\n'

/-- One for true, zero for false. -/
def ofTruth (b : Bool) : Int := if b then 1 else 0

/-- The operations of a level, those that bind less first; longer signs come first. -/
def operations : Nat → List (String × (Int → Int → Option Int))
  | 0 => [("==", fun a b => some (ofTruth (a = b))), ("!=", fun a b => some (ofTruth (a ≠ b)))]
  | 1 =>
    [("<=", fun a b => some (ofTruth (a ≤ b))), (">=", fun a b => some (ofTruth (b ≤ a))),
     ("<", fun a b => some (ofTruth (a < b))), (">", fun a b => some (ofTruth (b < a)))]
  | 2 => [("+", fun a b => some (a + b)), ("-", fun a b => some (a - b))]
  | _ =>
    [("*", fun a b => some (a * b)),
     ("/", fun a b => if b = 0 then none else some (a.tdiv b)),
     ("%", fun a b => if b = 0 then none else some (a.tmod b))]

/-- The number of levels. -/
def levels : Nat := 4

/-- The integer that a text of digits stands for, 0 for any other text. -/
def number (s : List Char) : Int :=
  match s with
  | '-' :: rest => -((String.ofList rest).toNat?.getD 0 : Int)
  | s => ((String.ofList s).toNat?.getD 0 : Int)

mutual

/-- The value of a sum of a level, and the rest. -/
def level? (value : String → List Char) : (fuel n : Nat) → List Char → Option (Int × List Char)
  | 0, _, _ => none
  | fuel + 1, n, s =>
    if n < levels then do
      let (a, rest) ← level? value fuel (n + 1) s
      more? value fuel n a rest
    else
      match s.dropWhile isSpace with
      | '(' :: rest => do
        let (a, rest) ← level? value fuel 0 rest
        match rest.dropWhile isSpace with
        | ')' :: rest => return (a, rest)
        | _ => none
      | '-' :: rest => (level? value fuel levels rest).map fun (a, more) => (-a, more)
      | '+' :: rest => level? value fuel levels rest
      | '!' :: rest => (level? value fuel levels rest).map fun (a, more) => (ofTruth (a = 0), more)
      | s =>
        let s := if s.head? = some '$' then s.drop 1 else s
        let name := s.takeWhile fun c => c.isAlphanum || c = '_'
        if name.isEmpty then none
        else if name.all Char.isDigit then some (number name, s.drop name.length)
        else some (number (value (String.ofList name)), s.drop name.length)

/-- The value of a sum of which a first part is known, and the rest. -/
def more? (value : String → List Char) : (fuel n : Nat) → Int → List Char → Option (Int × List Char)
  | 0, _, _, _ => none
  | fuel + 1, n, a, s =>
    let s := s.dropWhile isSpace
    match (operations n).find? fun o => o.1.toList.isPrefixOf s with
    | none => some (a, s)
    | some (sign, f) => do
      let (b, rest) ← level? value fuel (n + 1) (s.drop sign.length)
      more? value fuel n (← f a b) rest

end

/-- The value of a sum, where variables have values. -/
def value? (value : String → List Char) (s : List Char) : Option Int :=
  if s.all isSpace then some 0
  else
    match level? value (8 * s.length + 8) 0 s with
    | some (a, rest) => if rest.all isSpace then some a else none
    | none => none

end Arithmetic
end Shell
end LintMerge
