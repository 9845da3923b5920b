/-
# Styled text

A text with a style for the whole and styles for some of its spans. Five control
characters (bell, backspace, vertical tab, form feed, carriage return) would move
the cursor and are left out as text is added.
-/

import LintMerge.Text.Blank

namespace LintMerge

/-- A style of text on a console. -/
inductive Style where
  | cyan
  | red
  | yellow
  | blue
  | green
  | dim
  | bold
  deriving DecidableEq, Repr

/-- The name of a style. -/
def Style.name : Style → String
  | cyan => "cyan"
  | red => "red"
  | yellow => "yellow"
  | blue => "blue"
  | green => "green"
  | dim => "dim"
  | bold => "bold"

/-- A style of the characters from `start` to before `stop`. -/
structure StyleSpan where
  start : Nat
  stop : Nat
  style : Style
  deriving DecidableEq, Repr

/-- A text with styles. -/
structure Styled where
  plain : List Char := []
  base : Option Style := none
  spans : List StyleSpan := []
  deriving DecidableEq, Repr

namespace Styled

/-- Whether a character would move the cursor. -/
def isControl (c : Char) : Bool := c.toNat ∈ [7, 8, 11, 12, 13]

/-- A text without the characters that would move the cursor. -/
def printable (s : List Char) : List Char := s.filter (!isControl ·)

/-- A text of one style. -/
def ofText (s : String) (base : Option Style := none) : Styled := ⟨printable s.toList, base, []⟩

/-- A styled text with more text at its end. -/
def append (t : Styled) (s : String) (style : Option Style := none) : Styled :=
  if s.isEmpty then t
  else
    let added := printable s.toList
    { t with
      plain := t.plain ++ added
      spans := t.spans ++ style.toList.map fun st => ⟨t.plain.length, t.plain.length + added.length, st⟩ }

/-- The spans of a text that stands at an offset of another. -/
def spansAt (offset : Nat) (t : Styled) : List StyleSpan :=
  (t.base.toList.map fun st => ⟨offset, offset + t.plain.length, st⟩) ++
    t.spans.map fun s => ⟨offset + s.start, offset + s.stop, s.style⟩

/-- Two texts with a line feed between them. -/
def joinTwo (t u : Styled) : Styled where
  plain := t.plain ++ '\n' :: u.plain
  base := t.base
  spans := t.spans ++ spansAt (t.plain.length + 1) u

/-- Texts on lines of their own. -/
def joinLines : List Styled → Styled
  | [] => {}
  | t :: rest => rest.foldl joinTwo { plain := t.plain, spans := spansAt 0 t }

end Styled
end LintMerge
