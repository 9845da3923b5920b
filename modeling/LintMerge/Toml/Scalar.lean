/-
# Keys, strings, numbers and moments of TOML

A string stands between quotes; between double ones a backslash escapes, between
single ones it does not, and between three of a kind it may hold line feeds. Other
control characters but the tab stand in no string and no comment.
-/

import LintMerge.Json.Token
import LintMerge.Time.Stamp
import LintMerge.Toml.Fault

namespace LintMerge
namespace Toml

/-- Whether a character is a blank. -/
def isBlank (c : Char) : Bool := c = ' ' || c = '\t'

/-- What follows the blanks. -/
def skip (s : List Char) : List Char := s.dropWhile isBlank

/-- What follows the blanks and line feeds. -/
def skipLines (s : List Char) : List Char := s.dropWhile fun c => isBlank c || c = '\n'

/-- Whether a character stands in no string and no comment. -/
def isIllegal (c : Char) : Bool := (c.toNat < 32 && c != '\t') || c.toNat = 127

/-- Whether a character may stand in a key without quotes. -/
def isBare (c : Char) : Bool :=
  Text.isAsciiDigit c || ('a' ≤ c && c ≤ 'z') || ('A' ≤ c && c ≤ 'Z') || c = '-' || c = '_'

/-- What follows a text at the start of another. -/
def after? : (start s : List Char) → Option (List Char)
  | [], s => some s
  | _ :: _, [] => none
  | a :: start, c :: rest => if a = c then after? start rest else none

/-- The characters up to a text, and what follows it. -/
def upTo? (stop : List Char) : List Char → Option (List Char × List Char)
  | [] => none
  | c :: rest =>
    match after? stop (c :: rest) with
    | some tail => some ([], tail)
    | none => (upTo? stop rest).map fun (head, tail) => (c :: head, tail)

/-- Refuses characters of which one is illegal, at the first such. -/
def checkLegal (illegal : Char → Bool) : (count : Nat) → List Char → Except Fault Unit
  | 0, _ => .ok ()
  | _, [] => .ok ()
  | n + 1, c :: rest =>
    if illegal c then refuse (.badCharacter c) (c :: rest) else checkLegal illegal n rest

/-- What follows a comment. -/
def skipComment (s : List Char) : Except Fault (List Char) :=
  match s with
  | '#' :: rest => do
    let inside := rest.takeWhile (· ≠ '\n')
    checkLegal isIllegal inside.length rest
    return rest.drop inside.length
  | s => .ok s

/-- What follows blanks, line feeds and comments. -/
def skipAll : (fuel : Nat) → List Char → Except Fault (List Char)
  | 0, s => .ok s
  | fuel + 1, s =>
    match skipLines s with
    | '#' :: rest => do skipAll fuel (← skipComment ('#' :: rest))
    | rest => .ok rest

/-- A string between single quotes, the first of which has been read. -/
def literal (illegal : Char → Bool) (quotes : String) (s : List Char) :
    Except Fault (List Char × List Char) :=
  match upTo? quotes.toList s with
  | none => refuse (.unclosed quotes) []
  | some (inside, rest) => do
    checkLegal illegal inside.length s
    return (inside, rest)

/-- The character of some hexadecimal digits. -/
def hexChar (count : Nat) (s : List Char) : Except Fault (Char × List Char) :=
  let digits := s.take count
  match digits.mapM Json.hexValue? with
  | none => refuse .badHex s
  | some ds =>
    if ds.length < count then refuse .badHex s
    else
      let n := ds.foldl (fun n d => n * 16 + d) 0
      if n < 0xD800 ∨ (0xE000 ≤ n ∧ n < 0x110000) then .ok (Char.ofNat n, s.drop count)
      else refuse .notAScalar (s.drop count)

/-- What an escape stands for; `s` starts after the backslash. -/
def escape (lines : Bool) (s : List Char) : Except Fault (List Char × List Char) :=
  let one (x : Char × List Char) : List Char × List Char := ([x.1], x.2)
  match s with
  | 'b' :: rest => .ok (['\x08'], rest)
  | 't' :: rest => .ok (['\t'], rest)
  | 'n' :: rest => .ok (['\n'], rest)
  | 'f' :: rest => .ok (['\x0c'], rest)
  | 'r' :: rest => .ok (['\r'], rest)
  | '"' :: rest => .ok (['"'], rest)
  | '\\' :: rest => .ok (['\\'], rest)
  | 'u' :: rest => (hexChar 4 rest).map one
  | 'U' :: rest => (hexChar 8 rest).map one
  | c :: rest =>
    if lines ∧ c = '\n' then .ok ([], skipLines rest)
    else if lines ∧ isBlank c then
      match skip rest with
      | [] => .ok ([], [])
      | '\n' :: rest => .ok ([], skipLines rest)
      | rest => refuse .badEscape rest
    else refuse .badEscape rest
  | [] => refuse .badEscape []

/-- The rest of a string between double quotes; `done` holds its characters, the last
one first. -/
def basic (lines : Bool) : (fuel : Nat) → (done s : List Char) → Except Fault (List Char × List Char)
  | 0, _, s => refuse .unterminated s
  | fuel + 1, done, s =>
    match s with
    | [] => refuse .unterminated []
    | '"' :: rest =>
      if lines then
        match rest with
        | '"' :: '"' :: rest => .ok (done.reverse, rest)
        | rest => basic lines fuel ('"' :: done) rest
      else .ok (done.reverse, rest)
    | '\\' :: rest =>
      match escape lines rest with
      | .error e => .error e
      | .ok (cs, rest) => basic lines fuel (cs.reverse ++ done) rest
    | c :: rest =>
      if isIllegal c && !(lines && c = '\n') then refuse (.illegalCharacter c) s
      else basic lines fuel (c :: done) rest

/-- A string of one line between double quotes, the first of which has been read. -/
def basicLine (s : List Char) : Except Fault (List Char × List Char) :=
  basic false (s.length + 1) [] s

/-- A string and up to two quotes after its closing ones, which belong to it. -/
def withQuotes (quote : Char) (s rest : List Char) : List Char × List Char :=
  match rest with
  | a :: b :: more =>
    if a = quote then (if b = quote then (s ++ [a, b], more) else (s ++ [a], b :: more)) else (s, rest)
  | [a] => if a = quote then (s ++ [a], []) else (s, rest)
  | [] => (s, [])

/-- A string between three quotes, the first three of which have been read. -/
def lines (quote : Char) (s : List Char) : Except Fault (List Char × List Char) := do
  let s :=
    match s with
    | '\n' :: rest => rest
    | s => s
  let (inside, rest) ←
    if quote = '"' then basic true (s.length + 1) [] s
    else literal (fun c => isIllegal c && c != '\n') "\x27\x27\x27" s
  return withQuotes quote inside rest

/-- A string value, if there is one. -/
def string? (s : List Char) : Option (Except Fault (List Char × List Char)) :=
  match s with
  | '"' :: '"' :: '"' :: rest => some (lines '"' rest)
  | '"' :: rest => some (basicLine rest)
  | '\x27' :: '\x27' :: '\x27' :: rest => some (lines '\x27' rest)
  | '\x27' :: rest => some (literal isIllegal "\x27" rest)
  | _ => none

/-- A name of a key. -/
def keyPart (s : List Char) : Except Fault (String × List Char) :=
  match s with
  | '"' :: rest => (basicLine rest).map fun (cs, rest) => (String.ofList cs, rest)
  | '\x27' :: rest => (literal isIllegal "\x27" rest).map fun (cs, rest) => (String.ofList cs, rest)
  | s =>
    let bare := s.takeWhile isBare
    if bare.isEmpty then refuse .notAKey s else .ok (String.ofList bare, s.drop bare.length)

/-- A key, and what follows it and the blanks after it. -/
def key : (fuel : Nat) → List Char → Except Fault (Key × List Char)
  | 0, s => refuse .notAKey s
  | fuel + 1, s => do
    let (name, rest) ← keyPart s
    match skip rest with
    | '.' :: rest =>
      let (names, rest) ← key fuel (skip rest)
      return (name :: names, rest)
    | rest => return ([name], rest)

/-- Digits between which single underscores may stand, and what follows them. -/
def digitRun (isDigit : Char → Bool) : List Char → List Char × List Char
  | [] => ([], [])
  | c :: rest =>
    if isDigit c then
      let (ds, rest) := digitRun isDigit rest
      (c :: ds, rest)
    else
      match c, rest with
      | '_', d :: _ =>
        if isDigit d then
          let (ds, rest) := digitRun isDigit rest
          (ds, rest)
        else ([], c :: rest)
      | _, _ => ([], c :: rest)

/-- Digits, the first of which is one, and what follows them. -/
def someDigits? (isDigit : Char → Bool) (s : List Char) : Option (List Char × List Char) :=
  if s.head?.any isDigit then some (digitRun isDigit s) else none

/-- An integer in another base, after its zero and its letter. -/
def based? (s : List Char) : Option (Value × List Char) :=
  let read (base : Nat) (isDigit : Char → Bool) (s : List Char) :=
    (someDigits? isDigit s).map fun (ds, rest) =>
      let n := ds.foldl (fun n c => n * base + (Json.hexValue? c).getD 0) 0
      (Value.int n, rest)
  match s with
  | 'x' :: rest => read 16 (fun c => (Json.hexValue? c).isSome) rest
  | 'o' :: rest => read 8 (fun c => '0' ≤ c && c ≤ '7') rest
  | 'b' :: rest => read 2 (fun c => c = '0' || c = '1') rest
  | _ => none

/-- The fraction at the start of a text. -/
def fraction (s : List Char) : Option (List Char × List Char) :=
  match s with
  | '.' :: rest => someDigits? Text.isAsciiDigit rest
  | _ => none

/-- The exponent at the start of a text. -/
def exponent (s : List Char) : Option (Int × List Char) :=
  match s with
  | c :: rest =>
    if c = 'e' ∨ c = 'E' then
      let (negative, body) :=
        match rest with
        | '-' :: body => (true, body)
        | '+' :: body => (false, body)
        | body => (false, body)
      (someDigits? Text.isAsciiDigit body).map fun (ds, rest) =>
        let n : Int := Json.natOf ds
        (if negative then -n else n, rest)
    else none
  | [] => none

/-- A decimal number, if there is one. -/
def decimal? (s : List Char) : Option (Except Fault (Value × List Char)) :=
  let (negative, body) :=
    match s with
    | '-' :: body => (true, body)
    | '+' :: body => (false, body)
    | body => (false, body)
  let whole? :=
    match body with
    | '0' :: rest => some (['0'], rest)
    | body => someDigits? Text.isAsciiDigit body
  whole?.map fun (whole, rest) =>
    let tail := fraction rest
    let rest := (tail.map (·.2)).getD rest
    let power := exponent rest
    let rest := (power.map (·.2)).getD rest
    if tail.isNone && power.isNone then
      if whole.length > Text.maxDigits then .error (.tooManyDigits whole.length)
      else
        let n : Int := Json.natOf whole
        .ok (.int (if negative then -n else n), rest)
    else
      let tail := (tail.map (·.1)).getD []
      let e := (power.map (·.1)).getD 0
      .ok (.float (.ofDecimal negative (Json.natOf (whole ++ tail)) (e - tail.length)), rest)

/-- A number, an infinity or no number, if there is one. -/
def number? (s : List Char) : Option (Except Fault (Value × List Char)) :=
  let based :=
    match s with
    | '0' :: rest => based? rest
    | _ => none
  match based with
  | some v => some (.ok v)
  | none =>
    match decimal? s with
    | some v => some v
    | none =>
      match s with
      | 'i' :: 'n' :: 'f' :: rest => some (.ok (.float (.infinite false), rest))
      | '+' :: 'i' :: 'n' :: 'f' :: rest => some (.ok (.float (.infinite false), rest))
      | '-' :: 'i' :: 'n' :: 'f' :: rest => some (.ok (.float (.infinite true), rest))
      | 'n' :: 'a' :: 'n' :: rest => some (.ok (.float .nan, rest))
      | '+' :: 'n' :: 'a' :: 'n' :: rest => some (.ok (.float .nan, rest))
      | '-' :: 'n' :: 'a' :: 'n' :: rest => some (.ok (.float .nan, rest))
      | _ => none

/-- A number of two digits with a greatest value, at the start of a text. -/
def two? (least greatest : Nat) (s : List Char) : Option (List Char) :=
  match s with
  | a :: b :: rest =>
    (Stamp.number? [a, b]).bind fun n => if least ≤ n ∧ n ≤ greatest then some rest else none
  | _ => none

/-- What follows a time of day, if there is one. -/
def afterTime? (s : List Char) : Option (List Char) := do
  let s ← after? [':'] (← two? 0 23 s)
  let s ← after? [':'] (← two? 0 59 s)
  let s ← two? 0 59 s
  match s with
  | '.' :: rest =>
    let ds := rest.takeWhile Text.isAsciiDigit
    return if ds.isEmpty then s else rest.drop ds.length
  | s => return s

/-- What follows an offset from UTC, if there is one. -/
def afterOffset? (s : List Char) : Option (List Char) :=
  match s with
  | 'Z' :: rest => some rest
  | 'z' :: rest => some rest
  | c :: rest =>
    if c = '+' ∨ c = '-' then do two? 0 59 (← after? [':'] (← two? 0 23 rest)) else none
  | [] => none

/-- What follows a date, if there is one, and whether the calendar has the date. -/
def afterDate? (s : List Char) : Option (Bool × List Char) := do
  let year ← Stamp.number? (s.take 4)
  let t ← after? ['-'] (s.drop 4)
  let u ← after? ['-'] (← two? 1 12 t)
  let rest ← two? 1 31 u
  let month ← Stamp.number? (t.take 2)
  let day ← Stamp.number? (u.take 2)
  return (1 ≤ year ∧ day ≤ daysIn year month, rest)

/-- A date, a time or both, if there is one. -/
def moment? (s : List Char) : Option (Except Fault (Value × List Char)) :=
  let value (rest : List Char) : Value × List Char :=
    (.moment (String.ofList (s.take (s.length - rest.length))), rest)
  match afterDate? s with
  | some (valid, rest) =>
    let full :=
      match rest with
      | c :: more =>
        if c = 'T' ∨ c = 't' ∨ c = ' ' then
          (afterTime? more).map fun rest => (afterOffset? rest).getD rest
        else none
      | [] => none
    some (if valid then .ok (value (full.getD rest)) else refuse .badMoment s)
  | none => (afterTime? s).map fun rest => .ok (value rest)

end Toml
end LintMerge
