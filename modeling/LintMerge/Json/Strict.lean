/-
# Reading JSON, strictly

The reader of written reports (`Report.from_json`). A fault is told by what was expected and by a
line and a column, where the column counts octets of UTF-8; the column after the last octet is that
of the octet itself. Containers may be nested 200 deep.

The functions take fuel: a value of length `n` needs at most `2 · n + 2` of it.
-/

import LintMerge.Json.Token
import LintMerge.Text.Utf8
import LintMerge.Value

namespace LintMerge
namespace Json
namespace Strict

/-- Why a text is no JSON document. -/
inductive Cause where
  | endInList
  | endInObject
  | endInString
  | endInValue
  | noColon
  | noListComma
  | noObjectComma
  | noWord
  | noValue
  | badEscape
  | badNumber
  | numberTooLong
  | controlCharacter
  | noName
  | lonelySurrogate
  | trailingComma
  | trailingCharacters
  | endInEscape
  | tooDeep
  deriving DecidableEq, Repr

/-- What is said of a cause. -/
def Cause.message : Cause → String
  | endInList => "EOF while parsing a list"
  | endInObject => "EOF while parsing an object"
  | endInString => "EOF while parsing a string"
  | endInValue => "EOF while parsing a value"
  | noColon => "expected `:`"
  | noListComma => "expected `,` or `]`"
  | noObjectComma => "expected `,` or `\x7d`"
  | noWord => "expected ident"
  | noValue => "expected value"
  | badEscape => "invalid escape"
  | badNumber => "invalid number"
  | numberTooLong => "number out of range"
  | controlCharacter => "control character (\\u0000-\\u001F) found while parsing a string"
  | noName => "key must be a string"
  | lonelySurrogate => "lone leading surrogate in hex escape"
  | trailingComma => "trailing comma"
  | trailingCharacters => "trailing characters"
  | endInEscape => "unexpected end of hex escape"
  | tooDeep => "recursion limit exceeded"

/-- A fault; `remaining` characters are left at it. -/
structure Fault where
  cause : Cause
  remaining : Nat
  deriving DecidableEq, Repr

/-- Refuses what starts with `s`. -/
def refuse {α : Type} (cause : Cause) (s : List Char) : Except Fault α :=
  .error ⟨cause, s.length⟩

/-- The most containers around a value. -/
def maxDepth : Nat := 200

/-- The number of four hexadecimal digits, the last of them and what follows. -/
def unit (s : List Char) : Except Fault (Nat × List Char) :=
  if Text.Utf8.size s < 4 then .error ⟨.endInString, 0⟩ else go 4 0 s
where
  /-- The number after some more digits. -/
  go : Nat → Nat → List Char → Except Fault (Nat × List Char)
    | 0, n, s => .ok (n, s)
    | k + 1, n, s =>
      match s with
      | [] => .error ⟨.endInString, 0⟩
      | c :: rest =>
        match hexValue? c with
        | none => refuse .badEscape s
        | some d => go k (n * 16 + d) rest

/-- The character of an escape; `s` starts after the `u`. -/
def codePoint (s : List Char) : Except Fault (Char × List Char) := do
  let (n, rest) ← unit s
  if 0xDC00 ≤ n ∧ n < 0xE000 then .error ⟨.lonelySurrogate, rest.length + 1⟩
  else if 0xD800 ≤ n ∧ n < 0xDC00 then
    match rest with
    | '\\' :: 'u' :: more => do
      let (low, rest) ← unit more
      if 0xDC00 ≤ low ∧ low < 0xE000 then
        .ok (Char.ofNat (0x10000 + (n - 0xD800) * 0x400 + (low - 0xDC00)), rest)
      else .error ⟨.lonelySurrogate, rest.length + 1⟩
    | '\\' :: more => if more.isEmpty then .error ⟨.endInString, 0⟩ else refuse .endInEscape more
    | [] => .error ⟨.endInString, 0⟩
    | _ => refuse .endInEscape rest
  else .ok (Char.ofNat n, rest)

/-- The rest of a string. -/
def string : Nat → List Char → List Char → Except Fault (List Char × List Char)
  | 0, _, s => refuse .endInString s
  | fuel + 1, done, s =>
    match s with
    | [] => refuse .endInString s
    | '"' :: rest => .ok (done.reverse, rest)
    | '\\' :: rest =>
      match rest with
      | [] => refuse .endInString rest
      | '"' :: rest => string fuel ('"' :: done) rest
      | '\\' :: rest => string fuel ('\\' :: done) rest
      | '/' :: rest => string fuel ('/' :: done) rest
      | 'b' :: rest => string fuel ('\x08' :: done) rest
      | 'f' :: rest => string fuel ('\x0c' :: done) rest
      | 'n' :: rest => string fuel ('\n' :: done) rest
      | 'r' :: rest => string fuel ('\r' :: done) rest
      | 't' :: rest => string fuel ('\t' :: done) rest
      | 'u' :: rest =>
        match codePoint rest with
        | .error e => .error e
        | .ok (c, rest) => string fuel (c :: done) rest
      | rest => refuse .badEscape rest
    | c :: rest =>
      if c.toNat < 32 then refuse .controlCharacter s else string fuel (c :: done) rest

/-- A string whose opening quote has been read. -/
def quoted (s : List Char) : Except Fault (String × List Char) := do
  let (chars, rest) ← string (s.length + 1) [] s
  return (String.ofList chars, rest)

/-- What follows the rest of a word. -/
def word : (expected s : List Char) → Except Fault (List Char)
  | [], s => .ok s
  | _ :: _, [] => refuse .endInValue []
  | e :: expected, c :: rest => if e = c then word expected rest else refuse .noWord (c :: rest)

/-- Digits of which there has to be one. -/
def someDigits (s : List Char) : Except Fault (List Char × List Char) :=
  let ds := digits s
  if ds.isEmpty then refuse (if s.isEmpty then .endInValue else .badNumber) s
  else .ok (ds, s.drop ds.length)

/-- The digits of a fraction, none without a point, and what follows. -/
def fraction (s : List Char) : Except Fault (List Char × List Char) :=
  match s with
  | '.' :: rest => someDigits rest
  | s => .ok ([], s)

/-- An exponent, zero without its letter, and what follows. -/
def power (s : List Char) : Except Fault (Int × List Char) :=
  match s with
  | [] => .ok (0, s)
  | c :: rest =>
    if c = 'e' ∨ c = 'E' then do
      let (ds, s) ← someDigits (powerSign rest).2
      let n : Int := natOf ds
      return (if (powerSign rest).1 then -n else n, s)
    else .ok (0, s)

/-- The fraction and the exponent of a number whose whole part has been read. -/
def floating (negative : Bool) (whole s : List Char) : Except Fault (Value × List Char) := do
  let (tail, s) ← fraction s
  let (power, s) ← power s
  return (.float (.ofDecimal negative (natOf (whole ++ tail)) (power - tail.length)), s)

/-- Whether a text goes on with a fraction or an exponent. -/
def goesOn : List Char → Bool
  | c :: _ => c = '.' || c = 'e' || c = 'E'
  | [] => false

/-- A number after its sign. -/
def magnitude (negative : Bool) (s : List Char) : Except Fault (Value × List Char) :=
  match s with
  | [] => refuse .endInValue s
  | '0' :: rest =>
    if goesOn rest then floating negative ['0'] rest
    else if (digits rest).isEmpty then .ok (.int 0, rest)
    else refuse .badNumber rest
  | 'I' :: rest => do
    let rest ← word "nfinity".toList rest
    return (.float (.infinite negative), rest)
  | s =>
    let whole := digits s
    let rest := s.drop whole.length
    let length := whole.length + (if negative then 1 else 0)
    if whole.isEmpty then refuse .badNumber s
    else if goesOn rest then floating negative whole rest
    else if length > Text.maxDigits then
      refuse .numberTooLong (s.drop (Text.maxDigits + 1 - (if negative then 1 else 0)))
    else
      let n : Int := natOf whole
      .ok (.int (if negative then -n else n), rest)

/-- A number. -/
def number (s : List Char) : Except Fault (Value × List Char) :=
  match s with
  | '-' :: rest => magnitude true rest
  | 'N' :: rest => do
    let rest ← word "aN".toList rest
    return (.float .nan, rest)
  | 'I' :: _ => magnitude false s
  | c :: _ => if Text.isAsciiDigit c then magnitude false s else refuse .noValue s
  | [] => refuse .endInValue s

mutual

/-- A value inside `depth` containers. -/
def value : Nat → Nat → List Char → Except Fault (Value × List Char)
  | 0, _, s => refuse .noValue s
  | fuel + 1, depth, s =>
    match s with
    | '"' :: rest => do
      let (t, rest) ← quoted rest
      return (.text t, rest)
    | '\x7b' :: rest =>
      match skip rest with
      | [] => refuse .endInObject []
      | '\x7d' :: rest => .ok (.table [], rest)
      | rest => members fuel depth [] rest
    | '[' :: rest =>
      match skip rest with
      | [] => refuse .endInList []
      | ']' :: rest => .ok (.list [], rest)
      | rest => if depth < maxDepth then items fuel depth [] rest else refuse .tooDeep rest
    | 'n' :: rest => do return (.null, ← word "ull".toList rest)
    | 't' :: rest => do return (.bool true, ← word "rue".toList rest)
    | 'f' :: rest => do return (.bool false, ← word "alse".toList rest)
    | s => number s

/-- The rest of a list that has a value next. -/
def items : Nat → Nat → List Value → List Char → Except Fault (Value × List Char)
  | 0, _, _, s => refuse .noValue s
  | fuel + 1, depth, done, s => do
    let (v, rest) ← value fuel (depth + 1) s
    match skip rest with
    | [] => refuse .endInList []
    | ']' :: rest => .ok (.list (v :: done).reverse, rest)
    | ',' :: rest =>
      match skip rest with
      | [] => refuse .endInValue []
      | ']' :: rest => refuse .trailingComma (']' :: rest)
      | rest => items fuel depth (v :: done) rest
    | rest => refuse .noListComma rest

/-- The rest of a table that has a name next. -/
def members : Nat → Nat → List (String × Value) → List Char → Except Fault (Value × List Char)
  | 0, _, _, s => refuse .noName s
  | fuel + 1, depth, done, s =>
    match s with
    | '"' :: rest => do
      let (name, rest) ← quoted rest
      match skip rest with
      | [] => refuse .endInObject []
      | ':' :: rest =>
        match skip rest with
        | [] => refuse .endInValue []
        | rest =>
          if depth < maxDepth then
            let (v, rest) ← value fuel (depth + 1) rest
            let done := Value.insert name v done
            match skip rest with
            | [] => refuse .endInObject []
            | '\x7d' :: rest => .ok (.table done, rest)
            | ',' :: rest =>
              match skip rest with
              | [] => refuse .endInValue []
              | '\x7d' :: rest => refuse .trailingComma ('\x7d' :: rest)
              | rest => members fuel depth done rest
            | rest => refuse .noObjectComma rest
          else refuse .tooDeep rest
      | rest => refuse .noColon rest
    | s => refuse .noName s

end

/-- The value of a document, white space around it allowed. -/
def document (s : List Char) : Except Fault Value :=
  match skip s with
  | [] => refuse .endInValue []
  | body => do
    let (v, rest) ← value (2 * body.length + 2) 0 body
    match skip rest with
    | [] => .ok v
    | rest => refuse .trailingCharacters rest

/-- The line and the column of an offset, in octets. -/
def place (octets : List UInt8) (offset : Nat) : Nat × Nat :=
  let seen := octets.take (offset + 1)
  let lines := seen.count 10
  let tail := (seen.reverse.takeWhile (· ≠ 10)).length
  (lines + 1, tail)

/-- What is said of a fault in a text. -/
def Fault.message (text : List Char) (f : Fault) : String :=
  let offset := Text.Utf8.size (text.take (text.length - f.remaining))
  let (line, column) := place (Text.Utf8.encode text) offset
  s!"Invalid JSON: {f.cause.message} at line {line} column {column}"

end Strict
end Json
end LintMerge
