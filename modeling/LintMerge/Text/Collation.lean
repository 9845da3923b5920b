/-
# Collation

Texts are compared by their keys (`strxfrm`). The order of code points gives a text itself for a
key. A C library computes keys from texts that end at the first `U+0000`, so there a
text that holds one has no key.
-/

import LintMerge.Text.Glyph

namespace LintMerge

/-- How texts are compared: the key of a text, if it has one. Keys are compared by their
code points. -/
abbrev Collation := List Glyph → Option (List Glyph)

namespace Collation

/-- The order of code points. -/
def codePoints : Collation := some

/-- The order of code points as a C library knows it. -/
def system : Collation := fun s => if s.contains (.char '\x00') then none else codePoints s

theorem system_eq_none_iff {s : List Glyph} : system s = none ↔ .char '\x00' ∈ s := by
  unfold system
  split <;> simp_all [codePoints]

end Collation
end LintMerge
