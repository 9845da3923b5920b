/-
# Points in time

A stamp (the timestamp of a `Report`) is a date, a time of day to the microsecond and, if known, the
offset from UTC in seconds. It is written `2025-01-02T03:04:05Z`, with six digits for a fraction
other than zero and `+02:00` for an offset other than zero. It is read from such a text (a blank,
`t` or `_` may stand before the time, the seconds and the offset may be missing, a fraction may have
any number of digits), from a date alone, and from the seconds since 1970, which count as
milliseconds when there are more than `2 · 10^10` of them.
-/

import LintMerge.Check.Field

namespace LintMerge

/-- Whether a year has a 29th of February. -/
def isLeapYear (year : Nat) : Bool :=
  year % 4 = 0 && (year % 100 != 0 || year % 400 = 0)

/-- The number of days of a month, none for a month that is none. -/
def daysIn (year month : Nat) : Nat :=
  if month = 2 then (if isLeapYear year then 29 else 28)
  else if month ∈ [4, 6, 9, 11] then 30
  else if 1 ≤ month ∧ month ≤ 12 then 31
  else 0

/-- A point in time. -/
structure Stamp where
  year : Nat
  month : Nat
  day : Nat
  hour : Nat
  minute : Nat
  second : Nat
  micro : Nat
  /-- seconds east of UTC -/
  offset : Option Int
  deriving DecidableEq, Repr, Inhabited

namespace Stamp

/-- Why a text is no date. -/
inductive Cause where
  | tooShort
  | badYear
  | badMonth
  | badDay
  | badSeparator
  | noSuchMonth
  | noSuchDay
  | tooLong
  | tooEarly
  | tooLate
  | notANumber
  deriving DecidableEq, Repr

/-- What is said of a cause. -/
def Cause.message : Cause → String
  | tooShort => "input is too short"
  | badYear => "invalid character in year"
  | badMonth => "invalid character in month"
  | badDay => "invalid character in day"
  | badSeparator => "invalid date separator, expected `-`"
  | noSuchMonth => "month value is outside expected range of 1-12"
  | noSuchDay => "day value is outside expected range"
  | tooLong => "unexpected extra characters at the end of the input"
  | tooEarly => "dates before 1600 are not supported as unix timestamps"
  | tooLate => "dates after 9999 are not supported as unix timestamps"
  | notANumber => "NaN values not permitted"

/-- The number that some digits stand for, none if one of them is no digit. -/
def number? (ds : List Char) : Option Nat :=
  if ds.all Text.isAsciiDigit then some (Text.ofDigits (ds.map fun c => c.toNat - 48)) else none

/-- The date at the start of a text, and what follows it. -/
def date (s : List Char) : Except Cause (Nat × Nat × Nat × List Char) :=
  match s with
  | y₁ :: y₂ :: y₃ :: y₄ :: d₁ :: m₁ :: m₂ :: d₂ :: a₁ :: a₂ :: rest =>
    match number? [y₁, y₂, y₃, y₄] with
    | none => .error .badYear
    | some year =>
      if d₁ ≠ '-' then .error .badSeparator
      else
        match number? [m₁, m₂] with
        | none => .error .badMonth
        | some month =>
          if d₂ ≠ '-' then .error .badSeparator
          else
            match number? [a₁, a₂] with
            | none => .error .badDay
            | some day =>
              if daysIn year month = 0 then .error .noSuchMonth
              else if day < 1 ∨ daysIn year month < day then .error .noSuchDay
              else .ok (year, month, day, rest)
  | _ => .error .tooShort

/-- Hour, minute, second and microsecond at the start of a text, and what follows. -/
def clock? (s : List Char) : Option (Nat × Nat × Nat × Nat × List Char) :=
  match s with
  | h₁ :: h₂ :: ':' :: m₁ :: m₂ :: rest => do
    let hour ← number? [h₁, h₂]
    let minute ← number? [m₁, m₂]
    if 23 < hour ∨ 59 < minute then none
    else
      match rest with
      | ':' :: s₁ :: s₂ :: rest => do
        let second ← number? [s₁, s₂]
        if 59 < second then none
        else
          match rest with
          | c :: more =>
            if c = '.' ∨ c = ',' then
              let ds := more.takeWhile Text.isAsciiDigit
              if ds.isEmpty then none
              else
                let kept := ds.take 6
                let micro ← number? (kept ++ List.replicate (6 - kept.length) '0')
                return (hour, minute, second, micro, more.drop ds.length)
            else return (hour, minute, second, 0, rest)
          | [] => return (hour, minute, second, 0, [])
      | ':' :: _ => none
      | _ => return (hour, minute, 0, 0, rest)
  | _ => none

/-- The offset that a text consists of. -/
def offset? (s : List Char) : Option (Option Int) :=
  let signed (sign : Int) (rest : List Char) : Option (Option Int) :=
    let digits :=
      match rest with
      | [h₁, h₂, ':', m₁, m₂] => some (h₁, h₂, m₁, m₂)
      | [h₁, h₂, m₁, m₂] => some (h₁, h₂, m₁, m₂)
      | _ => none
    digits.bind fun (h₁, h₂, m₁, m₂) => do
      let hours ← number? [h₁, h₂]
      let minutes ← number? [m₁, m₂]
      if 59 < minutes ∨ 23 < hours then none
      else some (some (sign * (hours * 3600 + minutes * 60 : Nat)))
  match s with
  | [] => some none
  | ['Z'] => some (some 0)
  | ['z'] => some (some 0)
  | '+' :: rest => signed 1 rest
  | '-' :: rest => signed (-1) rest
  | '−' :: rest => signed (-1) rest
  | _ => none

/-- The stamp that a text with a date and a time stands for. -/
def full? (s : List Char) : Option Stamp :=
  match date s with
  | .ok (year, month, day, c :: rest) =>
    if c = 'T' ∨ c = 't' ∨ c = ' ' ∨ c = '_' then do
      let (hour, minute, second, micro, rest) ← clock? rest
      let offset ← offset? rest
      return ⟨year, month, day, hour, minute, second, micro, offset⟩
    else none
  | _ => none

/-- The date that lies a number of days after the first of January 1970. -/
def ofDays (days : Int) : Nat × Nat × Nat :=
  -- eras of 400 years from the first of March of the year 0
  let z := days + 719468
  let era := Int.fdiv z 146097
  let dayOfEra := (z - era * 146097).toNat
  let yearOfEra := (dayOfEra - dayOfEra / 1460 + dayOfEra / 36524 - dayOfEra / 146096) / 365
  let dayOfYear := dayOfEra - (365 * yearOfEra + yearOfEra / 4 - yearOfEra / 100)
  let monthIndex := (5 * dayOfYear + 2) / 153
  let day := dayOfYear - (153 * monthIndex + 2) / 5 + 1
  let month := if monthIndex < 10 then monthIndex + 3 else monthIndex - 9
  let year := (yearOfEra + era * 400).toNat + (if month ≤ 2 then 1 else 0)
  (year, month, day)

/-- The stamp of a number of seconds and microseconds since 1970. -/
def ofSeconds (count : Int) (micro : Nat) : Except Cause Stamp :=
  let (second, micro) :=
    if count.natAbs ≤ 20000000000 then (count, micro)
    else (Int.fdiv count 1000, micro + (Int.fmod count 1000).toNat * 1000)
  let (second, micro) := (second + (micro / 1000000 : Nat), micro % 1000000)
  if second < -11676096000 then .error .tooEarly
  else if 253402300799 < second then .error .tooLate
  else
    let (year, month, day) := ofDays (Int.fdiv second 86400)
    let ofDay := (Int.fmod second 86400).toNat
    .ok ⟨year, month, day, ofDay / 3600, ofDay / 60 % 60, ofDay % 60, micro, some 0⟩

/-- The whole part of a number, rounded down, and the microseconds of its fraction. -/
def splitFloat (negative : Bool) (m : Nat) (q : Int) : Int × Nat :=
  let den := Binary64.twoPow (-q)
  let whole : Int := if negative then Int.fdiv (-(m * Binary64.twoPow q : Nat)) den
    else (m * Binary64.twoPow q / den : Nat)
  let rest := m * Binary64.twoPow q % den
  let micro :=
    match Binary64.ofRatio false (rest * 1000000) den with
    | .finite _ m q => (2 * m * Binary64.twoPow q + Binary64.twoPow (-q)) / (2 * Binary64.twoPow (-q))
    | _ => 0
  (whole, micro)

/-- A written number of seconds, with a fraction or without. -/
def seconds? (s : List Char) : Option (Except Cause Stamp) :=
  let (negative, body) :=
    match s with
    | '-' :: rest => (true, rest)
    | '+' :: rest => (false, rest)
    | rest => (false, rest)
  let whole := body.takeWhile Text.isAsciiDigit
  if whole.isEmpty ∨ 18 < whole.length then none
  else
    let rest := body.drop whole.length
    let n := Text.ofDigits (whole.map fun c => c.toNat - 48)
    match rest with
    | [] => some (ofSeconds (if negative then -(n : Int) else n) 0)
    | '.' :: tail =>
      (number? tail).bind fun f =>
        match Binary64.ofDecimal negative (n * Nat.pow 10 tail.length + f) (-(tail.length : Int)) with
        | .finite negative m q =>
          let (second, micro) := splitFloat negative m q
          some (ofSeconds second micro)
        | _ => none
    | _ => none

/-- The stamp that a text stands for: with a time, as seconds, or as a date alone. -/
def ofText (s : List Char) : Except Cause Stamp :=
  match full? s with
  | some stamp => .ok stamp
  | none =>
    match seconds? s with
    | some (.ok stamp) => .ok stamp
    | some (.error e) => .error e
    | none =>
      match date s with
      | .error e => .error e
      | .ok (year, month, day, []) => .ok ⟨year, month, day, 0, 0, 0, 0, none⟩
      | .ok _ => .error .tooLong

/-- The stamp that a number stands for. -/
def ofNumber : Binary64 → Except Cause Stamp
  | .nan => .error .notANumber
  | .infinite negative => .error (if negative then .tooEarly else .tooLate)
  | .finite negative m q =>
    let (second, micro) := splitFloat negative m q
    ofSeconds second micro

/-- An outcome as one of a check. -/
def checked (problem : String → Check.Problem) : Except Cause Stamp → Checked Stamp
  | .ok stamp => .ok stamp
  | .error e => .refuse (problem e.message)

/-- The stamp that a value stands for. -/
def check : Value → Checked Stamp
  | .text s => checked .badMoment (ofText s.toList)
  | .int n =>
    if -Check.wordBound ≤ n ∧ n < Check.wordBound then checked .badInstant (ofSeconds n 0)
    else .refuse .notMoment
  | .float x => checked .badInstant (ofNumber x)
  | .torn _ => .refuse .notUnicode
  | _ => .refuse .notMoment

/-- A number in at least `width` digits. -/
def padded (width n : Nat) : List Char :=
  let digits := Nat.toDigits 10 n
  List.replicate (width - digits.length) '0' ++ digits

/-- The offset of a stamp as it is written. -/
def offsetText : Option Int → List Char
  | none => []
  | some e =>
    if e = 0 then ['Z']
    else
      (if e < 0 then '-' else '+') :: padded 2 (e.natAbs / 3600) ++ ':' :: padded 2 (e.natAbs / 60 % 60)

/-- The text of a stamp. -/
def text (t : Stamp) : List Char :=
  padded 4 t.year ++ '-' :: padded 2 t.month ++ '-' :: padded 2 t.day ++
    'T' :: padded 2 t.hour ++ ':' :: padded 2 t.minute ++ ':' :: padded 2 t.second ++
    (if t.micro = 0 then [] else '.' :: padded 6 t.micro) ++ offsetText t.offset

end Stamp
end LintMerge
