/-
# Alternatives in braces

`{a,b}` stands for each of its alternatives (`expand_braces`). The leftmost group without a group
inside goes first, and of patterns that come out equal the first is kept. Braces
without a partner stand for themselves.
-/

import LintMerge.Text.Blank

namespace LintMerge
namespace Glob

/-- Whether a character is a brace. -/
def isBrace (c : Char) : Bool := c = '\x7b' || c = '\x7d'

/-- The leftmost group without a group inside: what stands before, in and after it. -/
def group? : List Char → Option (List Char × List Char × List Char)
  | [] => none
  | c :: rest =>
    let later := (group? rest).map fun (head, inner, tail) => (c :: head, inner, tail)
    if c = '\x7b' then
      let inner := rest.takeWhile (!isBrace ·)
      match rest.drop inner.length with
      | '\x7d' :: tail => some ([], inner, tail)
      | _ => later
    else later

/-- The patterns that a pattern stands for, `fuel` groups being expanded at most. -/
def expandFrom : Nat → List Char → List (List Char)
  | 0, s => [s]
  | fuel + 1, s =>
    match group? s with
    | none => [s]
    | some (head, inner, tail) =>
      (Text.splitOn ',' inner).flatMap fun option => expandFrom fuel (head ++ option ++ tail)

/-- The patterns that a pattern stands for; a group uses up one opening brace. -/
def expandBraces (pattern : String) : List String :=
  let s := pattern.toList
  ((expandFrom (s.count '\x7b') s).map String.ofList).eraseDups

end Glob
end LintMerge
