/-
# Marked up text

In a cell of a table, a name in square brackets opens a style and one after a slash
closes it; an empty one closes the style that was opened last. A bracket that is no
such tag stands for itself, as does a tag after a backslash. Only the text matters
here, and whether every closing tag has something to close.
-/

import LintMerge.Console.Styled

namespace LintMerge
namespace Console
namespace Markup

/-- A closing tag that closes nothing. -/
inductive Fault where
  | noMatch (tag : String) (position : Nat)
  | nothingOpen (position : Nat)
  deriving DecidableEq, Repr

/-- What is said of a fault. -/
def Fault.message : Fault → String
  | noMatch tag position => s!"closing tag '[{tag}]' at position {position} doesn't match any open tag"
  | nothingOpen position => s!"closing tag '[/]' at position {position} has nothing to close"

/-- Whether a character may start a tag. -/
def startsTag (c : Char) : Bool := ('a' ≤ c && c ≤ 'z') || c = '#' || c = '/' || c = '@'

/-- The inside of a tag that starts at an opening bracket, and the rest. -/
def tag? : List Char → Option (List Char × List Char)
  | '[' :: c :: rest =>
    let inside := rest.takeWhile fun d => d != ']' && d != '['
    match rest.drop inside.length with
    | ']' :: more => if startsTag c then some (c :: inside, more) else none
    | _ => none
  | _ => none

/-- Text in which a backslash before a bracket is dropped. -/
def unescaped : List Char → List Char
  | '\\' :: '[' :: rest => '[' :: unescaped rest
  | c :: rest => c :: unescaped rest
  | [] => []

/-- The name of a style as it is compared. -/
def styleName (s : List Char) : List Char := (Text.trim s).map Char.toLower

/-- The open styles after a tag at a position. -/
def applyTag (position : Nat) (opened : List (List Char)) (inside : List Char) :
    Except Fault (List (List Char)) :=
  let name := inside.takeWhile (· ≠ '=')
  match name with
  | '/' :: closed =>
    if (Text.trim closed).isEmpty then
      match opened with
      | [] => .error (.nothingOpen position)
      | _ :: rest => .ok rest
    else if opened.contains (styleName closed) then .ok (opened.erase (styleName closed))
    else .error (.noMatch (String.ofList inside) position)
  | name => .ok (styleName name :: opened)

/-- The text of marked up text; `plain` holds what was read since the last tag, the last
character first, and `fuel` is the length of the rest. -/
def textFrom : (fuel position : Nat) → (opened : List (List Char)) → (plain : List Char) →
    List Char → Except Fault (List Char)
  | 0, _, _, plain, _ => .ok (unescaped plain.reverse)
  | fuel + 1, position, opened, plain, s => do
    let slashes := (s.takeWhile (· = '\\')).length
    match tag? (s.drop slashes), s with
    | some (inside, rest), s =>
      let position' := position + (s.length - rest.length)
      let start := unescaped plain.reverse ++ List.replicate (slashes / 2) '\\'
      if slashes % 2 = 1 then
        return start ++ '[' :: inside ++ ']' :: (← textFrom fuel position' opened [] rest)
      else
        let opened ← applyTag (position + slashes) opened inside
        return start ++ (← textFrom fuel position' opened [] rest)
    | none, [] => .ok (unescaped plain.reverse)
    | none, c :: rest =>
      if slashes = 0 then textFrom fuel (position + 1) opened (c :: plain) rest
      else
        textFrom fuel (position + slashes) opened (List.replicate slashes '\\' ++ plain) (s.drop slashes)

/-- The text of marked up text. -/
def text (s : List Char) : Except Fault (List Char) :=
  (textFrom (s.length + 1) 0 [] [] s).map Styled.printable

end Markup
end Console
end LintMerge
