/-
# What a shell can do by itself

Printing and testing need no other program. A backslash in what is printed stands for
a control character, or for an octet given by its octal digits.
-/

import LintMerge.Text.Utf8

namespace LintMerge
namespace Shell
namespace Builtin

/-- The octets of a text. -/
def octets (s : List Char) : List UInt8 := Text.Utf8.encode s

/-- The octet of a control character after a backslash. -/
def control? (c : Char) : Option UInt8 :=
  (["a", "b", "f", "n", "r", "t", "v", "\\"].zip [7, 8, 12, 10, 13, 9, 11, 92]).lookup (String.singleton c)

/-- The octet of up to `limit` octal digits, and the rest. -/
def octal (limit : Nat) (s : List Char) : UInt8 × List Char :=
  let ds := (s.take limit).takeWhile fun c => '0' ≤ c && c ≤ '7'
  ((ds.foldl (fun n (c : Char) => 8 * n + (c.toNat - 48)) 0).toUInt8, s.drop ds.length)

/-- Octets with an escape read, whether printing goes on, and the rest. `longOctal`
tells whether octal digits follow a zero. -/
def escape (longOctal : Bool) (s : List Char) : List UInt8 × Bool × List Char :=
  match s with
  | [] => ([92], true, [])
  | 'c' :: rest => if longOctal then ([], false, []) else (octets ['\\', 'c'], true, rest)
  | c :: rest =>
    match control? c with
    | some n => ([n], true, rest)
    | none =>
      if longOctal ∧ c = '0' then
        let (n, rest) := octal 3 rest
        ([n], true, rest)
      else if !longOctal ∧ '0' ≤ c ∧ c ≤ '7' then
        let (n, rest) := octal 3 s
        ([n], true, rest)
      else (octets ['\\', c], true, rest)

/-- The octets of a text in which backslashes count, and whether printing goes on;
`fuel` is the length. -/
def escaped : (fuel : Nat) → List Char → List UInt8 × Bool
  | 0, _ => ([], true)
  | _, [] => ([], true)
  | fuel + 1, '\\' :: rest =>
    let (start, goesOn, rest) := escape true rest
    if goesOn then
      let (more, goesOn) := escaped fuel rest
      (start ++ more, goesOn)
    else (start, false)
  | fuel + 1, c :: rest =>
    let (more, goesOn) := escaped fuel rest
    (octets [c] ++ more, goesOn)

/-- Words with a blank between each two. -/
def spaced (words : List (List Char)) : List Char := (words.intersperse [' ']).flatten

/-- What is printed for words. -/
def echo (words : List (List Char)) : List UInt8 :=
  let (quiet, words) :=
    match words with
    | ['-', 'n'] :: rest => (true, rest)
    | ws => (false, ws)
  let text := spaced words
  let (out, goesOn) := escaped text.length text
  if goesOn ∧ !quiet then out ++ [10] else out

/-- What is printed for a text and arguments, the arguments left, and whether one was
used. -/
def format : (fuel : Nat) → List Char → List (List Char) → Bool → List UInt8 × List (List Char) × Bool
  | 0, _, args, used => ([], args, used)
  | _, [], args, used => ([], args, used)
  | fuel + 1, '\\' :: rest, args, used =>
    let (start, _, rest) := escape false rest
    let (more, args, used) := format fuel rest args used
    (start ++ more, args, used)
  | fuel + 1, '%' :: '%' :: rest, args, used =>
    let (more, args, used) := format fuel rest args used
    (37 :: more, args, used)
  | fuel + 1, '%' :: c :: rest, args, used =>
    let arg := args.headD []
    let start : List UInt8 :=
      match c with
      | 's' => octets arg
      | 'b' => (escaped arg.length arg).1
      | 'c' => octets (arg.take 1)
      | 'd' | 'i' | 'u' => octets (toString ((String.ofList arg).toInt?.getD 0)).toList
      | c => octets ['%', c]
    let takes := c ∈ "sbcdiu".toList
    let (more, args, used) := format fuel rest (if takes then args.tail else args) (used || takes)
    (start ++ more, args, used)
  | fuel + 1, c :: rest, args, used =>
    let (more, args, used) := format fuel rest args used
    (octets [c] ++ more, args, used)

/-- What is printed for a text that is used again as long as arguments are left. -/
def printf : (rounds : Nat) → List Char → List (List Char) → List UInt8
  | 0, _, _ => []
  | rounds + 1, text, args =>
    let (out, rest, used) := format (text.length + 1) text args false
    if used ∧ !rest.isEmpty then out ++ printf rounds text rest else out

/-- The integer that an operand stands for. -/
def operand? (s : List Char) : Option Int := (String.ofList s).trimAscii.toString.toInt?

/-- Whether two operands compare. -/
def compare? (sign : String) (a b : List Char) : Option Bool := do
  match sign with
  | "=" => return decide (a = b)
  | "!=" => return decide (a ≠ b)
  | "-eq" => return decide ((← operand? a) = (← operand? b))
  | "-ne" => return decide ((← operand? a) ≠ (← operand? b))
  | "-lt" => return decide ((← operand? a) < (← operand? b))
  | "-le" => return decide ((← operand? a) ≤ (← operand? b))
  | "-gt" => return decide ((← operand? b) < (← operand? a))
  | "-ge" => return decide ((← operand? b) ≤ (← operand? a))
  | _ => none

/-- Whether a test holds; `file` tells of files. None for what is no test. -/
def test? (file : Char → List Char → Bool) : List (List Char) → Option Bool
  | [] => some false
  | [a] => some (!a.isEmpty)
  | ['!'] :: [a] => some a.isEmpty
  | [['-', 'n'], a] => some (!a.isEmpty)
  | [['-', 'z'], a] => some a.isEmpty
  | [['-', c], a] => if c ∈ "defrwxs".toList then some (file c a) else none
  | [a, sign, b] =>
    if a = ['!'] ∧ sign.length = 2 then (test? file [sign, b]).map (!·)
    else compare? (String.ofList sign) a b
  | ['!'] :: rest => (test? file rest).map (!·)
  | _ => none

end Builtin
end Shell
end LintMerge
