/-
# White space and lines

White space is what the Unicode standard calls so, together with the four
information separators `U+001C` … `U+001F`. A line ends at a line feed, a
carriage return, the pair of both, a vertical tab, a form feed, the first three
separators, `U+0085`, `U+2028` or `U+2029`; an end of text right after a boundary
opens no further line.
-/

namespace LintMerge
namespace Text

/-- Whether a character is white space. -/
def isBlank (c : Char) : Bool :=
  let n := c.toNat
  (9 ≤ n && n ≤ 13) || (28 ≤ n && n ≤ 32) || n == 0x85 || n == 0xA0 || n == 0x1680 ||
    (0x2000 ≤ n && n ≤ 0x200A) || n == 0x2028 || n == 0x2029 || n == 0x202F || n == 0x205F ||
    n == 0x3000

/-- Whether a character ends a line. -/
def isBoundary (c : Char) : Bool :=
  let n := c.toNat
  (10 ≤ n && n ≤ 13) || (28 ≤ n && n ≤ 30) || n == 0x85 || n == 0x2028 || n == 0x2029

/-- A text without the white space at its start. -/
def trimStart (s : List Char) : List Char := s.dropWhile isBlank

/-- A text without the white space at its end. -/
def trimEnd (s : List Char) : List Char := (s.reverse.dropWhile isBlank).reverse

/-- A text without the white space around it. -/
def trim (s : List Char) : List Char := trimEnd (trimStart s)

/-- The lines of a text, without their boundaries. -/
def lines : List Char → List (List Char)
  | [] => []
  | '\r' :: '\n' :: rest => [] :: lines rest
  | c :: rest =>
    if isBoundary c then [] :: lines rest
    else
      match lines rest with
      | [] => [[c]]
      | line :: more => (c :: line) :: more

/-- The parts of a text, or of another list, between the occurrences of a separator. -/
def splitOn {α : Type} [DecidableEq α] (sep : α) : List α → List (List α)
  | [] => [[]]
  | c :: rest =>
    if c = sep then [] :: splitOn sep rest
    else
      match splitOn sep rest with
      | [] => [[c]]
      | part :: more => (c :: part) :: more

theorem splitOn_ne_nil {α : Type} [DecidableEq α] (sep : α) (s : List α) : splitOn sep s ≠ [] := by
  cases s with
  | nil => simp [splitOn]
  | cons c rest =>
    unfold splitOn
    split
    · simp
    · split <;> simp

/-- Texts, or other lists, joined with a separator between them. -/
def joinWith {α : Type} (sep : List α) : List (List α) → List α
  | [] => []
  | [part] => part
  | part :: rest => part ++ sep ++ joinWith sep rest

end Text

/-- A string without the white space around it. -/
def trimmed (s : String) : String := String.ofList (Text.trim s.toList)

/-- Whether a string holds white space only. -/
def isBlankText (s : String) : Bool := s.toList.all Text.isBlank

end LintMerge
