/-
# UTF-8

A character is one to four octets. The first tells how many follow and, with
`E0`, `ED`, `F0` and `F4`, narrows the range of the second, so that there is one
form for each code point and none for half a surrogate pair. An octet that may
not start a character, or that does not continue the one begun, is a fault; a
fault spans the octets of the character begun, and the octet after them starts
afresh.

`decode` refuses a text at its first fault, `decodeLossy` puts the replacement
character in the place of each.
-/

namespace LintMerge
namespace Text
namespace Utf8

/-- A character begun. -/
structure Begun where
  /-- octets still to come -/
  owed : Nat
  /-- the least and the greatest value of the next -/
  low : Nat
  high : Nat
  /-- the bits so far -/
  bits : Nat
  /-- octets so far -/
  taken : Nat
  deriving Repr

/-- What an octet does at the start of a character. -/
inductive Start where
  | whole (c : Char)
  | begun (b : Begun)
  | invalid

/-- The first octet of a character. -/
def start (octet : UInt8) : Start :=
  let n := octet.toNat
  if n < 0x80 then .whole (Char.ofNat n)
  else if n < 0xC2 then .invalid
  else if n < 0xE0 then .begun ⟨1, 0x80, 0xBF, n - 0xC0, 1⟩
  else if n = 0xE0 then .begun ⟨2, 0xA0, 0xBF, 0, 1⟩
  else if n = 0xED then .begun ⟨2, 0x80, 0x9F, 0xD, 1⟩
  else if n < 0xF0 then .begun ⟨2, 0x80, 0xBF, n - 0xE0, 1⟩
  else if n = 0xF0 then .begun ⟨3, 0x90, 0xBF, 0, 1⟩
  else if n < 0xF4 then .begun ⟨3, 0x80, 0xBF, n - 0xF0, 1⟩
  else if n = 0xF4 then .begun ⟨3, 0x80, 0x8F, 4, 1⟩
  else .invalid

/-- Whether an octet continues a character. -/
def Begun.takes (b : Begun) (octet : UInt8) : Bool :=
  b.low ≤ octet.toNat && octet.toNat ≤ b.high

/-- The character after one more octet, whole or begun. -/
def Begun.push (b : Begun) (octet : UInt8) : Start :=
  let bits := b.bits * 64 + (octet.toNat - 0x80)
  if b.owed ≤ 1 then .whole (Char.ofNat bits)
  else .begun ⟨b.owed - 1, 0x80, 0xBF, bits, b.taken + 1⟩

/-- Why octets are no text. -/
inductive Cause where
  | badStart
  | badContinuation
  | endOfData
  deriving DecidableEq, Repr

/-- What is said of a cause. -/
def Cause.message : Cause → String
  | badStart => "invalid start byte"
  | badContinuation => "invalid continuation byte"
  | endOfData => "unexpected end of data"

/-- A fault that spans `width` octets from an offset on; the first of them is `octet`. -/
structure Fault where
  cause : Cause
  offset : Nat
  width : Nat
  octet : UInt8
  deriving DecidableEq, Repr

/-- The text of a number in two hexadecimal digits at least. -/
def hexOctet (n : Nat) : String :=
  let digits := Nat.toDigits 16 n
  String.ofList (List.replicate (2 - digits.length) '0' ++ digits)

/-- What is said of a fault. -/
def Fault.message (f : Fault) : String :=
  let place :=
    if f.width = 1 then s!"byte 0x{hexOctet f.octet.toNat} in position {f.offset}"
    else s!"bytes in position {f.offset}-{f.offset + f.width - 1}"
  s!"'utf-8' codec can't decode {place}: {f.cause.message}"

/-- The text after a number of octets, `begun` being a character with its first octet. -/
def decodeFrom (offset : Nat) (begun : Option (Begun × UInt8)) :
    List UInt8 → Except Fault (List Char)
  | [] =>
    match begun with
    | none => .ok []
    | some (b, first) => .error ⟨.endOfData, offset - b.taken, b.taken, first⟩
  | octet :: rest =>
    let (next, first) :=
      match begun with
      | none => (start octet, octet)
      | some (b, first) => (if b.takes octet then b.push octet else .invalid, first)
    match next with
    | .whole c => (decodeFrom (offset + 1) none rest).map (c :: ·)
    | .begun b => decodeFrom (offset + 1) (some (b, first)) rest
    | .invalid =>
      match begun with
      | none => .error ⟨.badStart, offset, 1, octet⟩
      | some (b, _) => .error ⟨.badContinuation, offset - b.taken, b.taken, first⟩

/-- The text of octets. -/
def decode (octets : List UInt8) : Except Fault (List Char) := decodeFrom 0 none octets

/-- The replacement character. -/
def replacement : Char := Char.ofNat 0xFFFD

/-- The text of octets after a character begun, replacement characters for faults. -/
def lossyFrom (begun : Option Begun) : List UInt8 → List Char
  | [] => if begun.isSome then [replacement] else []
  | octet :: rest =>
    let afresh :=
      match start octet with
      | .whole c => c :: lossyFrom none rest
      | .begun b => lossyFrom (some b) rest
      | .invalid => replacement :: lossyFrom none rest
    match begun with
    | none => afresh
    | some b =>
      if b.takes octet then
        match b.push octet with
        | .whole c => c :: lossyFrom none rest
        | .begun b => lossyFrom (some b) rest
        | .invalid => afresh
      else replacement :: afresh

/-- The text of octets, a replacement character for each fault. -/
def decodeLossy (octets : List UInt8) : List Char := lossyFrom none octets

/-- The octets of a text. -/
def encode (s : List Char) : List UInt8 := s.flatMap String.utf8EncodeChar

/-- The number of octets of a text. -/
def size (s : List Char) : Nat := s.foldr (fun c n => c.utf8Size + n) 0

end Utf8
end Text
end LintMerge
