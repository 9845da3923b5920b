/-
# Versions

A version is three numbers with dots between them. A program is asked for its
version in words of its own, so the first version in its answer is taken, and the
answer itself if it holds none (`extract_version`).
-/

import LintMerge.Text.Digit

namespace LintMerge
namespace Version

/-- The digits at the start of a text, one at least, and the rest. -/
def number? (s : List Char) : Option (List Char × List Char) :=
  let ds := s.takeWhile Text.isDigit
  if ds.isEmpty then none else some (ds, s.dropWhile Text.isDigit)

/-- What stands after a dot. -/
def afterDot? : List Char → Option (List Char)
  | '.' :: rest => some rest
  | _ => none

/-- The version at the start of a text, each of its numbers as long as possible. -/
def here? (s : List Char) : Option (List Char) := do
  let (major, s) ← number? s
  let (minor, s) ← number? (← afterDot? s)
  let (patch, _) ← number? (← afterDot? s)
  return major ++ '.' :: minor ++ '.' :: patch

/-- The first version in a text. -/
def find? : List Char → Option (List Char)
  | [] => none
  | c :: rest =>
    match here? (c :: rest) with
    | some v => some v
    | none => find? rest

/-- The version that an answer tells. -/
def ofAnswer (answer : String) : String :=
  match find? answer.toList with
  | some v => String.ofList v
  | none => trimmed answer

/-- What is said of a program that does not tell its version. -/
def unknown : String := "unknown"

/-- What is said of a program that is not there. -/
def notFound : String := "not found"

end Version
end LintMerge
