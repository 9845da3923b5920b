/-
# The order of issues

Issues are sorted by path, line and column (`sort_issues`). Paths are compared by the keys that a
collation gives them: without regard to letter case, and by their exact spelling when
this makes them equal. Issues of one place keep their order. Issues of which one has a
path without a key cannot be sorted.
-/

import LintMerge.Issue.Basic
import LintMerge.Text.Collation

namespace LintMerge
namespace Issue

/-- Whether a pair of keys decides that the first comes first; `rest` decides when they
are equal. -/
def thenCompare {α : Type} [LT α] [DecidableLT α] (a b : α) (rest : Bool) : Bool :=
  if a < b then true else if b < a then false else rest

/-- A glyph without regard to letter case, which a half has not. -/
def foldGlyph : Glyph → List Glyph
  | .char c => Glyph.ofChars (Text.foldChar c)
  | .half n => [.half n]

/-- The path of an issue without regard to letter case. -/
def folded (i : Issue) : List Glyph := i.spelling.flatMap foldGlyph

/-- The key of a text, empty for a text that has none. -/
def keyOf (c : Collation) (s : List Glyph) : List Glyph := (c s).getD []

/-- Whether an issue may stand before another. -/
def notAfter (c : Collation) (i j : Issue) : Bool :=
  thenCompare (keyOf c i.folded) (keyOf c j.folded)
    (thenCompare (keyOf c i.spelling) (keyOf c j.spelling)
      (thenCompare i.span.line j.span.line (decide (i.span.column ≤ j.span.column))))

/-- Issues in order. -/
def sort (c : Collation) (issues : List Issue) : List Issue := issues.mergeSort (notAfter c)

/-- Whether the path of an issue has its keys. -/
def hasKeys (c : Collation) (i : Issue) : Bool := (c i.folded).isSome && (c i.spelling).isSome

/-- An issue that cannot be sorted. -/
structure Unsortable where
  path : String
  deriving DecidableEq, Repr

/-- What is said of an issue that cannot be sorted. -/
def Unsortable.message (_ : Unsortable) : String := "embedded null character"

/-- Issues in order, or the first of them that cannot be sorted. -/
def sorted (c : Collation) (issues : List Issue) : Except Unsortable (List Issue) :=
  match issues.find? (!·.hasKeys c) with
  | some i => .error ⟨i.path⟩
  | none => .ok (sort c issues)

theorem hasKeys_codePoints (i : Issue) : i.hasKeys .codePoints = true := rfl

end Issue
end LintMerge
