/-
# Reading JSON

The reader of the output of tools (`json.loads`). Beside what the standard allows it takes
`NaN`, `Infinity` and `-Infinity`; of keys that occur twice the last value counts.
An escape for half a pair is taken as it is. A text that is no document is refused with
a cause and the number of characters from the fault to the end, so that the fault's
position is known.

The functions take fuel: a value of length `n` needs at most `2 · n + 2` of it.
-/

import LintMerge.Json.Token
import LintMerge.Text.Position
import LintMerge.Value

namespace LintMerge
namespace Json

/-- Why a text is no JSON document. -/
inductive Cause where
  | byteOrderMark
  | noValue
  | noName
  | noColon
  | noComma
  | unterminated
  | controlCharacter
  | badEscape
  | badCodePoint
  | extraData
  deriving DecidableEq, Repr

/-- What is said of a cause. -/
def Cause.message : Cause → String
  | byteOrderMark => "Unexpected UTF-8 BOM (decode using utf-8-sig)"
  | noValue => "Expecting value"
  | noName => "Expecting property name enclosed in double quotes"
  | noColon => "Expecting ':' delimiter"
  | noComma => "Expecting ',' delimiter"
  | unterminated => "Unterminated string starting at"
  | controlCharacter => "Invalid control character at"
  | badEscape => "Invalid \\escape"
  | badCodePoint => "Invalid \\uXXXX escape"
  | extraData => "Extra data"

/-- A text that cannot be read. -/
inductive Fault where
  /-- no document; `remaining` characters are left at the fault -/
  | malformed (cause : Cause) (remaining : Nat)
  /-- an integer with too many digits -/
  | tooManyDigits (count : Nat)
  deriving DecidableEq, Repr

/-- Refuses what starts with `s`. -/
def refuse {α : Type} (cause : Cause) (s : List Char) : Except Fault α :=
  .error (.malformed cause s.length)

/-- The glyph that a code unit stands for, with the second half of a pair after it. -/
def codePoint (s : List Char) : Except Fault (Glyph × List Char) :=
  -- `s` starts after the `u`; a character has to follow the digits
  let here := .error (.malformed .badCodePoint (s.length + 1))
  if s.length < 5 then here
  else
    match fourHex? s with
    | none => here
    | some (high, rest) =>
      if 0xD800 ≤ high ∧ high < 0xDC00 then
        match rest with
        | '\\' :: 'u' :: after =>
          if after.length < 5 then .ok (.ofUnit high, rest)
          else
            match fourHex? after with
            | none => .error (.malformed .badCodePoint (after.length + 1))
            | some (low, rest') =>
              if 0xDC00 ≤ low ∧ low < 0xE000 then
                .ok (.char (Char.ofNat (0x10000 + (high - 0xD800) * 0x400 + (low - 0xDC00))), rest')
              else .ok (.ofUnit high, rest)
        | _ => .ok (.ofUnit high, rest)
      else .ok (.ofUnit high, rest)

/-- The glyph that an escape stands for; `s` starts after the backslash. -/
def escape (opening : Nat) (s : List Char) : Except Fault (Glyph × List Char) :=
  match s with
  | [] => .error (.malformed .unterminated opening)
  | '"' :: rest => .ok (.char '"', rest)
  | '\\' :: rest => .ok (.char '\\', rest)
  | '/' :: rest => .ok (.char '/', rest)
  | 'b' :: rest => .ok (.char '\x08', rest)
  | 'f' :: rest => .ok (.char '\x0c', rest)
  | 'n' :: rest => .ok (.char '\n', rest)
  | 'r' :: rest => .ok (.char '\r', rest)
  | 't' :: rest => .ok (.char '\t', rest)
  | 'u' :: rest => codePoint rest
  | _ => .error (.malformed .badEscape (s.length + 1))

/-- The rest of a string whose opening quote has `opening` characters from it to the end. -/
def string (opening : Nat) : Nat → List Glyph → List Char → Except Fault (List Glyph × List Char)
  | 0, _, _ => .error (.malformed .unterminated opening)
  | fuel + 1, done, s =>
    match s with
    | [] => .error (.malformed .unterminated opening)
    | '"' :: rest => .ok (done.reverse, rest)
    | '\\' :: rest =>
      match escape opening rest with
      | .error e => .error e
      | .ok (g, rest') => string opening fuel (g :: done) rest'
    | c :: rest =>
      if c.toNat < 32 then refuse .controlCharacter s
      else string opening fuel (.char c :: done) rest

/-- A string whose opening quote has been read. -/
def quoted (s : List Char) : Except Fault (List Glyph × List Char) :=
  string (s.length + 1) (s.length + 1) [] s

/-- The digits of a fraction, with the point before them. -/
def fraction? : List Char → Option (List Char × List Char)
  | '.' :: rest =>
    let ds := digits rest
    if ds.isEmpty then none else some (ds, rest.drop ds.length)
  | _ => none

/-- The exponent of a number, with the letter before it. -/
def exponent? : List Char → Option (Int × List Char)
  | e :: rest =>
    if e = 'e' ∨ e = 'E' then
      let ds := digits (powerSign rest).2
      if ds.isEmpty then none
      else
        let n : Int := natOf ds
        some (if (powerSign rest).1 then -n else n, (powerSign rest).2.drop ds.length)
    else none
  | [] => none

/-- A number whose whole part has been read: an integer if nothing more belongs to it. -/
def ofWhole (negative : Bool) (whole s : List Char) : Except Fault (Value × List Char) :=
  let fraction := fraction? s
  let rest := (fraction.map (·.2)).getD s
  let power := exponent? rest
  if fraction.isNone && power.isNone then
    if whole.length > Text.maxDigits then .error (.tooManyDigits whole.length)
    else
      let n : Int := natOf whole
      .ok (.int (if negative then -n else n), s)
  else
    let tail := (fraction.map (·.1)).getD []
    let e := (power.map (·.1)).getD 0
    .ok (.float (.ofDecimal negative (natOf (whole ++ tail)) (e - tail.length)),
      (power.map (·.2)).getD rest)

/-- A number that starts with a digit. -/
def magnitude (negative : Bool) (s : List Char) : Except Fault (Value × List Char) :=
  let whole := if s.head? = some '0' then ['0'] else digits s
  ofWhole negative whole (s.drop whole.length)

/-- A number, an infinity or no number. -/
def number (s : List Char) : Except Fault (Value × List Char) :=
  match s with
  | 'N' :: 'a' :: 'N' :: rest => .ok (.float .nan, rest)
  | 'I' :: 'n' :: 'f' :: 'i' :: 'n' :: 'i' :: 't' :: 'y' :: rest =>
    .ok (.float (.infinite false), rest)
  | '-' :: 'I' :: 'n' :: 'f' :: 'i' :: 'n' :: 'i' :: 't' :: 'y' :: rest =>
    .ok (.float (.infinite true), rest)
  | '-' :: c :: rest =>
    if Text.isAsciiDigit c then magnitude true (c :: rest) else refuse .noValue s
  | c :: rest => if Text.isAsciiDigit c then magnitude false (c :: rest) else refuse .noValue s
  | [] => refuse .noValue s

mutual

/-- A value. -/
def value : Nat → List Char → Except Fault (Value × List Char)
  | 0, s => refuse .noValue s
  | fuel + 1, s =>
    match s with
    | '"' :: rest => do
      let (gs, rest) ← quoted rest
      return (.ofGlyphs gs, rest)
    | '\x7b' :: rest =>
      match skip rest with
      | '\x7d' :: rest => .ok (.table [], rest)
      | rest => members fuel [] rest
    | '[' :: rest =>
      match skip rest with
      | ']' :: rest => .ok (.list [], rest)
      | rest => items fuel [] rest
    | 'n' :: 'u' :: 'l' :: 'l' :: rest => .ok (.null, rest)
    | 't' :: 'r' :: 'u' :: 'e' :: rest => .ok (.bool true, rest)
    | 'f' :: 'a' :: 'l' :: 's' :: 'e' :: rest => .ok (.bool false, rest)
    | s => number s

/-- The rest of a list that has a value next. -/
def items : Nat → List Value → List Char → Except Fault (Value × List Char)
  | 0, _, s => refuse .noValue s
  | fuel + 1, done, s => do
    let (v, rest) ← value fuel s
    match skip rest with
    | ']' :: rest => .ok (.list (v :: done).reverse, rest)
    | ',' :: rest => items fuel (v :: done) (skip rest)
    | rest => refuse .noComma rest

/-- The rest of a table that has a name next. -/
def members : Nat → List (String × Value) → List Char → Except Fault (Value × List Char)
  | 0, _, s => refuse .noName s
  | fuel + 1, done, s =>
    match s with
    | '"' :: rest => do
      let (name, rest) ← quoted rest
      match skip rest with
      | ':' :: rest =>
        let (v, rest) ← value fuel (skip rest)
        let done := Value.insert (Glyph.text name) v done
        match skip rest with
        | '\x7d' :: rest => .ok (.table done, rest)
        | ',' :: rest => members fuel done (skip rest)
        | rest => refuse .noComma rest
      | rest => refuse .noColon rest
    | _ => refuse .noName s

end

/-- The value of a document, white space around it allowed. -/
def document (s : List Char) : Except Fault Value :=
  match s with
  | '\ufeff' :: _ => refuse .byteOrderMark s
  | _ =>
    let body := skip s
    match value (2 * body.length + 2) body with
    | .error e => .error e
    | .ok (v, rest) =>
      match skip rest with
      | [] => .ok v
      | rest => refuse .extraData rest

/-- The value of a document. -/
def read (s : String) : Except Fault Value := document s.toList

/-- Where in a text a fault lies that has `remaining` characters from it to the end. -/
def positionIn (text : List Char) (remaining : Nat) : Position :=
  Position.ofOffset text (text.length - remaining)

end Json
end LintMerge
