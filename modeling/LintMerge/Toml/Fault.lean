/-
# Faults in TOML documents

A fault has a cause and a place, the line and the column of a character or the end
of the document.
-/

import LintMerge.Text.Digit
import LintMerge.Text.Position
import LintMerge.Text.Quoted

namespace LintMerge
namespace Toml

/-- The names that lead from the root of a document to a value. -/
abbrev Key := List String

/-- The text of a key: its names between round brackets, a comma after a single one. -/
def keyText : Key → String
  | [name] => "(" ++ quoted name ++ ",)"
  | names => "(" ++ ", ".intercalate (names.map quoted) ++ ")"

/-- Why a text is no TOML document. -/
inductive Cause where
  | notAStatement
  | noLineEnd
  | unclosed (quotes : String)
  | badCharacter (c : Char)
  | illegalCharacter (c : Char)
  | declaredTwice (key : Key)
  | immutable (key : Key)
  | redefined (key : Key)
  | overwritten
  | noTableEnd
  | noTablesEnd
  | noEquals
  | notAKey
  | unclosedArray
  | unclosedTable
  | duplicate (name : String)
  | badEscape
  | badHex
  | notAScalar
  | unterminated
  | badMoment
  | badValue
  deriving DecidableEq, Repr

/-- What is said of a cause. -/
def Cause.message : Cause → String
  | notAStatement => "Invalid statement"
  | noLineEnd => "Expected newline or end of document after a statement"
  | unclosed quotes => "Expected " ++ quoted quotes
  | badCharacter c => "Found invalid character " ++ quoted c.toString
  | illegalCharacter c => "Illegal character " ++ quoted c.toString
  | declaredTwice key => s!"Cannot declare {keyText key} twice"
  | immutable key => s!"Cannot mutate immutable namespace {keyText key}"
  | redefined key => s!"Cannot redefine namespace {keyText key}"
  | overwritten => "Cannot overwrite a value"
  | noTableEnd => "Expected ']' at the end of a table declaration"
  | noTablesEnd => "Expected ']]' at the end of an array declaration"
  | noEquals => "Expected '=' after a key in a key/value pair"
  | notAKey => "Invalid initial character for a key part"
  | unclosedArray => "Unclosed array"
  | unclosedTable => "Unclosed inline table"
  | duplicate name => "Duplicate inline table key " ++ quoted name
  | badEscape => "Unescaped '\\' in a string"
  | badHex => "Invalid hex value"
  | notAScalar => "Escaped character is not a Unicode scalar value"
  | unterminated => "Unterminated string"
  | badMoment => "Invalid date or datetime"
  | badValue => "Invalid value"

/-- A text that cannot be read. -/
inductive Fault where
  /-- no document; `remaining` characters are left at the fault -/
  | malformed (cause : Cause) (remaining : Nat)
  /-- an integer with too many digits -/
  | tooManyDigits (count : Nat)
  deriving DecidableEq, Repr

/-- Refuses what starts with `s`. -/
def refuse {α : Type} (cause : Cause) (s : List Char) : Except Fault α :=
  .error (.malformed cause s.length)

/-- What is said of a fault in a text. -/
def Fault.message (text : List Char) : Fault → String
  | malformed cause remaining =>
    let place :=
      if remaining = 0 then "end of document"
      else
        let p := Position.ofOffset text (text.length - remaining)
        s!"line {p.line}, column {p.column}"
    s!"{cause.message} (at {place})"
  | tooManyDigits count => Text.tooManyDigits count

end Toml
end LintMerge
