/-
# Fields of records

What a field accepts is wider than its type. An integer may be a whole floating
point number, a truth value or a text; a truth value may be 0, 1 or a word; a
field of a record may be spelled in two ways. Data read from a JSON text is told
apart from other data only by the words of some faults.
-/

import LintMerge.Check.Fault
import LintMerge.Text.Digit
import LintMerge.Text.Letter

namespace LintMerge
namespace Check

/-- Where data comes from. -/
inductive Form where
  /-- a value built in memory -/
  | memory
  /-- a JSON text -/
  | json
  deriving DecidableEq, Repr

/-- White space around a written number. -/
def isNumberSpace (c : Char) : Bool := Text.isBlank c && !(28 ≤ c.toNat && c.toNat ≤ 31)

/-- A text without the white space around it. -/
def trimNumber (s : List Char) : List Char :=
  ((s.dropWhile isNumberSpace).reverse.dropWhile isNumberSpace).reverse

/-- Digits after their leading zeros, among which underscores do not count. -/
def dropZeros (s : List Char) : List Char :=
  match s with
  | '0' :: rest =>
    match rest.dropWhile fun c => c = '0' || c = '_' with
    | [] => s.drop (s.length - 1)
    | '.' :: more => s.drop (s.length - more.length - 2)
    | more => more
  | _ => s

/-- Digits without a fraction of zeros. -/
def dropFraction (s : List Char) : List Char :=
  let whole := s.takeWhile (· ≠ '.')
  let tail := s.drop (whole.length + 1)
  if tail.all (· = '0') then whole else s

/-- Whether an underscore stands at an end or beside another. -/
def hasStrayUnderscore : List Char → Bool
  | [] => false
  | ['_'] => true
  | '_' :: '_' :: _ => true
  | _ :: rest => hasStrayUnderscore rest

/-- The integer that a text stands for. -/
def integerOfText (s : String) : Checked Int :=
  let (negative, body) :=
    match trimNumber s.toList with
    | '-' :: rest => (true, rest)
    | '+' :: rest => (false, dropZeros rest)
    | rest => (false, dropZeros rest)
  let body := dropFraction body
  if body.head? = some '_' ∨ hasStrayUnderscore body then .refuse .notIntegerText
  else
    let digits := body.filter (· ≠ '_')
    if digits.isEmpty ∨ !digits.all Text.isAsciiDigit then .refuse .notIntegerText
    else if digits.length > Text.maxDigits then .refuse .tooLongInteger
    else
      let n : Int := Text.ofDigits (digits.map fun c => c.toNat - 48)
      .ok (if negative then -n else n)

/-- Two to the power of 63: a signed word of 64 bits holds what is from minus this number
to before it. -/
def wordBound : Int := 9223372036854775808

/-- An integer. -/
def integer : Value → Checked Int
  | .int n => .ok n
  | .bool b => .ok (if b then 1 else 0)
  | .float x =>
    if !x.isFinite then .refuse .notFinite
    else
      match x.toInt? with
      | none => .refuse .notWhole
      | some n => if -wordBound < n ∧ n < wordBound then .ok n else .refuse .tooLongInteger
  | .text s => integerOfText s
  | .torn _ => .refuse .notUnicode
  | _ => .refuse .notInteger

/-- An integer that is at least a bound. -/
def atLeast (bound : Nat) (v : Value) : Checked { n : Nat // bound ≤ n } :=
  (integer v).andThen fun n =>
    if h : (bound : Int) ≤ n then .ok ⟨n.toNat, by omega⟩ else .refuse (.below bound)

/-- An integer above zero. -/
def positive (v : Value) : Checked { n : Nat // 0 < n } :=
  (integer v).andThen fun n =>
    if h : 0 < n then .ok ⟨n.toNat, by omega⟩ else .refuse (.notAbove 0)

/-- A text. -/
def text (v : Value) : Checked String :=
  match v.string? with
  | some s => .ok s
  | none => .refuse .notText

/-- A text that is not empty; one with halves of pairs has no length that could be told. -/
def someText : Value → Checked { s : String // s ≠ "" }
  | .torn _ => .refuse .notUnicode
  | v => (text v).andThen fun s => if h : s = "" then .refuse .emptyText else .ok ⟨s, h⟩

/-- The words for true and for false. -/
def truthWords : List (String × Bool) :=
  [("1", true), ("true", true), ("t", true), ("yes", true), ("y", true), ("on", true),
   ("0", false), ("false", false), ("f", false), ("no", false), ("n", false), ("off", false)]

/-- A truth value by its number; a number beyond 64 bits is of the wrong kind. -/
def truthOfInt (n : Int) : Checked Bool :=
  if n = 0 then .ok false
  else if n = 1 then .ok true
  else if -wordBound ≤ n ∧ n < wordBound then .refuse .unclearTruth
  else .refuse .notTruth

/-- A truth value. -/
def truth : Value → Checked Bool
  | .bool b => .ok b
  | .int n => truthOfInt n
  | .float x =>
    match x.toInt? with
    | some n => if n = -wordBound then .refuse .notTruth else truthOfInt n
    | none => .refuse .notTruth
  | .text s =>
    match truthWords.find? fun w => w.1 = lowered s with
    | some w => .ok w.2
    | none => .refuse .unclearTruth
  | .torn _ => .refuse .notUnicode
  | _ => .refuse .notTruth

/-- One of some names. -/
def named {α : Type} (problem : List String → Problem) (name : α → String) (all : List α) :
    Value → Checked α
  | .text s =>
    match all.find? fun a => name a = s with
    | some a => .ok a
    | none => .refuse (problem (all.map name))
  | _ => .refuse (problem (all.map name))

/-- A list, each item of which is checked. -/
def sequence {α : Type} (form : Form) (check : Value → Checked α) : Value → Checked (List α)
  | .list vs => Checked.items check vs
  | _ => .refuse (match form with | .memory => .notSequence | .json => .notArray)

/-- Something that may be absent. -/
def optional {α : Type} (check : Value → Checked α) : Value → Checked (Option α)
  | .null => .ok none
  | v => some <$> check v

/-- The spellings of a field, the first one preferred. -/
structure Names where
  first : String
  second : String

/-- A field of one spelling. -/
def Names.plain (name : String) : Names := ⟨name, name⟩

/-- The entry of a field, with the spelling it has. -/
def Names.find (names : Names) (entries : List (String × Value)) : Option (String × Value) :=
  match Value.lookup names.first entries with
  | some v => some (names.first, v)
  | none => (Value.lookup names.second entries).map (names.second, ·)

/-- A field that has to be there. -/
def required {α : Type} (entries : List (String × Value)) (names : Names)
    (check : Value → Checked α) : Checked α :=
  match names.find entries with
  | none => (Checked.refuse .missing).under (.key names.first)
  | some (name, v) => (check v).under (.key name)

/-- A field that has a value when it is not there. -/
def defaulted {α : Type} (entries : List (String × Value)) (names : Names) (absent : α)
    (check : Value → Checked α) : Checked α :=
  match names.find entries with
  | none => .ok absent
  | some (name, v) => (check v).under (.key name)

/-- The entries of a record of a kind. -/
def record {α : Type} (form : Form) (kind : String) (v : Value)
    (check : List (String × Value) → Checked α) : Checked α :=
  match v with
  | .table entries => check entries
  | _ => .refuse (match form with | .memory => .notRecord kind | .json => .notObject)

/-- A fault for each entry of a record that is none of its fields. -/
def unexpected (known : List String) (entries : List (String × Value)) : List Fault :=
  (entries.filter fun e => !known.contains e.1).map fun e => ⟨[.key e.1], .unexpected⟩

end Check
end LintMerge
