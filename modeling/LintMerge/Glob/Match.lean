/-
# Matching glob patterns

A pattern matches a path as such, or a directory that the path lies in. Where both
are possible the longest reading of the first wildcard counts, then that of the
next, and so on. A match as such weighs more than one by a directory; of the
patterns of the greatest weight the last one tells whether the path is matched.
-/

import LintMerge.Glob.Braces
import LintMerge.Glob.Pattern
import LintMerge.Text.Quoted

namespace LintMerge
namespace Glob

/-- How a pattern matches a path. -/
inductive Weight where
  /-- by a directory that the path lies in -/
  | directory
  /-- as such -/
  | self
  deriving DecidableEq, Repr

/-- A step of matching. -/
inductive Step where
  | piece (p : Piece)
  /-- one character at least, none of them a slash -/
  | name
  /-- nothing, or characters up to a slash -/
  | deepBefore
  /-- nothing, or a slash and characters -/
  | deepAfter
  deriving DecidableEq, Repr

/-- How matching ends. -/
inductive Ending where
  /-- before a slash or at the end of the path -/
  | name
  /-- before a slash; the weight of a match -/
  | below (weight : Weight)
  deriving DecidableEq, Repr

/-- Whether a character is in a class. -/
def inRanges (ranges : List (Char × Char)) (c : Char) : Bool := ranges.any fun (a, b) => a ≤ c && c ≤ b

/-- What may follow after characters of a kind, the most of them first; `least` of them
are needed. -/
def longestFirst (least : Nat) (run s : List Char) : List (List Char) :=
  ((List.range (run.length + 1)).reverse.filter (least ≤ ·)).map s.drop

/-- What may follow after a step, in the order in which it is tried. -/
def Step.rests (step : Step) (s : List Char) : List (List Char) :=
  match step with
  | piece (.char c) => if s.head? = some c then [s.tail] else []
  | piece .one => if s.head?.any (· ≠ '/') then [s.tail] else []
  | piece .many => longestFirst 0 (s.takeWhile (· ≠ '/')) s
  | piece (.oneOf negated ranges) => if s.head?.any (inRanges ranges · != negated) then [s.tail] else []
  | name => longestFirst 1 (s.takeWhile (· ≠ '/')) s
  | deepBefore =>
    let run := s.takeWhile (· ≠ '\n')
    ((longestFirst 1 run s).filter (·.head? = some '/')).map List.tail ++ [s]
  | deepAfter =>
    (match s with
      | '/' :: rest => longestFirst 1 (rest.takeWhile (· ≠ '\n')) rest
      | _ => []) ++ [s]

/-- Whether a path ends here; a line feed may be left. -/
def atEnd (s : List Char) : Bool := s = [] || s = ['\n']

/-- How matching ends before the rest of a path. -/
def Ending.weight? (e : Ending) (s : List Char) : Option Weight :=
  match e with
  | name => if s.head? = some '/' then some .directory else if atEnd s then some .self else none
  | below weight => if s.head? = some '/' then some weight else none

/-- How steps and an ending match a path, if they do. -/
def weigh? (e : Ending) : List Step → List Char → Option Weight
  | [], s => e.weight? s
  | step :: rest, s => (step.rests s).findSome? (weigh? e rest)

/-- The steps of the segments after the first. -/
def stepsAfter : List Segment → List Step
  | [] => []
  | .deep :: rest => if rest.isEmpty then [] else .deepAfter :: stepsAfter rest
  | .any :: rest => .piece (.char '/') :: .name :: stepsAfter rest
  | .name ps :: rest => .piece (.char '/') :: ps.map .piece ++ stepsAfter rest

/-- The steps of segments. -/
def steps : List Segment → List Step
  | [] => []
  | .deep :: .deep :: rest => .deepBefore :: stepsAfter (.deep :: rest)
  | .deep :: .any :: rest => .deepBefore :: .name :: stepsAfter rest
  | .deep :: .name ps :: rest => .deepBefore :: ps.map .piece ++ stepsAfter rest
  | [.deep] => []
  | .any :: rest => .name :: stepsAfter rest
  | .name ps :: rest => ps.map .piece ++ stepsAfter rest

namespace Pattern

/-- The weight of a match by a directory for what follows `**`. -/
def belowWeight (p : Pattern) : Weight := if p.directory then .directory else .self

/-- How matching a pattern ends. -/
def ending (p : Pattern) : Ending :=
  if p.segments.getLast? = some .deep then .below p.belowWeight else .name

/-- How a pattern matches a path, if it does. -/
def weight? (p : Pattern) (s : List Char) : Option Weight :=
  match p.segments, p.directory with
  | [.deep], true => if '/' ∈ s then some .directory else none
  | [.deep], false => if s.any (· ≠ '\n') then some .self else none
  | [.deep, .any], _ => if s.any (· ≠ '\n') then some .self else none
  | [.deep, .any, .deep], _ => if '/' ∈ s then some p.belowWeight else none
  | segments, _ => weigh? p.ending (steps segments) s

end Pattern

/-- A list of patterns. -/
structure Spec where
  patterns : List Pattern
  deriving DecidableEq, Repr

namespace Spec

/-- A path without `/` or `./` at its start. -/
def trimPath : List Char → List Char
  | '/' :: rest => rest
  | '.' :: '/' :: rest => rest
  | s => s

/-- Whether a weight is at least another. -/
def outweighs : Weight → Option (Weight × Bool) → Bool
  | .self, _ => true
  | .directory, some (.self, _) => false
  | .directory, _ => true

/-- What is decided on a path after one more pattern. -/
def judge (s : List Char) (found : Option (Weight × Bool)) (p : Pattern) : Option (Weight × Bool) :=
  match p.weight? s with
  | some w => if outweighs w found then some (w, !p.negated) else found
  | none => found

/-- The weight and the sense of the pattern that decides on a path. -/
def verdict (spec : Spec) (s : List Char) : Option (Weight × Bool) := spec.patterns.foldl (judge s) none

/-- Whether a path is matched. -/
def isMatch (spec : Spec) (path : String) : Bool :=
  match spec.verdict (trimPath path.toList) with
  | some (_, included) => included
  | none => false

/-- A pattern anchored at the root, as the shell would expand it. -/
def anchor (pattern : String) : String :=
  match pattern.toList with
  | '/' :: _ => pattern
  | '!' :: _ => pattern
  | _ => "/" ++ pattern

/-- The lines that patterns stand for. -/
def lines (patterns : List String) : List String := patterns.flatMap fun p => (expandBraces p).map anchor

/-- The list of patterns; refused with the line of the first that is none. -/
def build (patterns : List String) : Except String Spec := do
  let found ← (lines patterns).mapM Pattern.ofLine
  return ⟨found.filterMap id⟩

/-- What is said of a line that is no pattern. -/
def invalidMessage (line : String) : String := "Invalid git pattern: " ++ quoted line

end Spec
end Glob
end LintMerge
