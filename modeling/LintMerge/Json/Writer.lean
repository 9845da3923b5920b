/-
# Writing JSON

A string is escaped where it has to be and nowhere else: the quote, the backslash
and the control characters up to `U+001F`, five of them by a letter and the others
by four hexadecimal digits. A document is written on one line without blanks, or
with an entry on each line and two blanks for each level (`Report.to_json`).
-/

import LintMerge.Value

namespace LintMerge
namespace Json

/-- A hexadecimal digit. -/
def hexDigit (n : Nat) : Char := Nat.digitChar (n % 16)

/-- A character of a string as it is written. -/
def escapeChar (c : Char) : List Char :=
  if c = '"' then ['\\', '"']
  else if c = '\\' then ['\\', '\\']
  else if c = '\x08' then ['\\', 'b']
  else if c = '\t' then ['\\', 't']
  else if c = '\n' then ['\\', 'n']
  else if c = '\x0c' then ['\\', 'f']
  else if c = '\r' then ['\\', 'r']
  else if c.toNat < 32 then ['\\', 'u', '0', '0', hexDigit (c.toNat / 16), hexDigit c.toNat]
  else [c]

/-- A string between quotes. -/
def writeString (s : List Char) : List Char := '"' :: s.flatMap escapeChar ++ ['"']

/-- What stands between the tokens of a document. -/
structure Spacing where
  /-- before an entry or a closing bracket on a level -/
  line : Nat → List Char
  /-- after the colon of an entry -/
  colon : List Char

/-- All on one line, without blanks. -/
def Spacing.compact : Spacing := ⟨fun _ => [], []⟩

/-- An entry on each line, two blanks for a level. -/
def Spacing.indented : Spacing := ⟨fun level => '\n' :: List.replicate (2 * level) ' ', [' ']⟩

mutual

/-- A value on a level. -/
def writeAt (sp : Spacing) (level : Nat) : Value → List Char
  | .null => "null".toList
  | .bool true => "true".toList
  | .bool false => "false".toList
  | .int n => (toString n).toList
  | .float x => x.text
  | .text s => writeString s.toList
  | .moment s => writeString s.toList
  | .torn t => writeString t.text.toList
  | .list [] => ['[', ']']
  | .list (v :: rest) =>
    '[' :: sp.line (level + 1) ++ writeAt sp (level + 1) v ++ writeMore sp (level + 1) rest ++
      sp.line level ++ [']']
  | .table [] => ['\x7b', '\x7d']
  | .table ((k, v) :: rest) =>
    '\x7b' :: sp.line (level + 1) ++ writeString k.toList ++ ':' :: sp.colon ++
      writeAt sp (level + 1) v ++ writeEntries sp (level + 1) rest ++ sp.line level ++ ['\x7d']

/-- The values of a list after the first. -/
def writeMore (sp : Spacing) (level : Nat) : List Value → List Char
  | [] => []
  | v :: rest => ',' :: sp.line level ++ writeAt sp level v ++ writeMore sp level rest

/-- The entries of a table after the first. -/
def writeEntries (sp : Spacing) (level : Nat) : List (String × Value) → List Char
  | [] => []
  | (k, v) :: rest =>
    ',' :: sp.line level ++ writeString k.toList ++ ':' :: sp.colon ++ writeAt sp level v ++
      writeEntries sp level rest

end

/-- The text of a document. -/
def write (sp : Spacing) (v : Value) : String := String.ofList (writeAt sp 0 v)

end Json
end LintMerge
