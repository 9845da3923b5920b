/-
# Texts with halves of pairs

The escapes of a JSON string stand for code units of UTF-16, two of which make a pair for one
character. Half a pair that stands alone is no character, but `json.loads` keeps it, and a text that
holds one can be compared, split and shown like any other. It has no UTF-8, however: whoever writes
it out is told of the first run of halves in it (`Unencodable`).

| half | what it is taken for |
| --- | --- |
| where texts are compared | a character of its code point (`Glyph.code`) |
| in a text that is computed with | the replacement character (`Glyph.masked`) |
| between quotes | an escape of its unit (`Glyph.quotedIn`) |
| in a message of a check | three replacement characters (`Glyph.lossy`) |
-/

import LintMerge.Text.Quoted

namespace LintMerge

/-- A character, or half a pair; halves are counted from `U+D800` on. -/
inductive Glyph where
  | char (c : Char)
  | half (n : Fin 0x800)
  deriving DecidableEq, Repr

namespace Glyph

/-- The glyph of a code unit. -/
def ofUnit (n : Nat) : Glyph :=
  if h : 0xD800 ≤ n ∧ n < 0xE000 then half ⟨n - 0xD800, by omega⟩ else char (Char.ofNat n)

/-- The digits of the unit that is half a pair. -/
def unitDigits (n : Fin 0x800) : List Char := Text.hex 4 (0xD800 + n)

/-- The code point of a glyph. -/
def code : Glyph → Nat
  | char c => c.toNat
  | half n => 0xD800 + n

/-- Glyphs are compared by their code points. -/
instance : LT Glyph := ⟨fun a b => a.code < b.code⟩

instance : DecidableLT Glyph := fun a b => inferInstanceAs (Decidable (a.code < b.code))

/-- Whether a glyph is half a pair. -/
def isHalf : Glyph → Bool
  | char _ => false
  | half _ => true

/-- The character that a glyph is taken for. -/
def masked : Glyph → Char
  | char c => c
  | half _ => '\ufffd'

/-- The text that glyphs are taken for. -/
def text (gs : List Glyph) : String := String.ofList (gs.map masked)

/-- A glyph between quotes of the kind `q`. -/
def quotedIn (q : Char) : Glyph → List Char
  | char c => Text.quoteChar q c
  | half n => '\\' :: 'u' :: unitDigits n

/-- Glyphs between quotes (`repr`). -/
def quote (gs : List Glyph) : List Char :=
  let q := Text.quoteOf (gs.map masked)
  q :: (gs.flatMap (quotedIn q) ++ [q])

/-- A glyph in a message of a check: each of the three octets of a half is replaced. -/
def lossy : Glyph → List Char
  | char c => [c]
  | half _ => List.replicate 3 '\ufffd'

/-- The glyphs of characters. -/
def ofChars (s : List Char) : List Glyph := s.map char

/-- The glyphs of a string. -/
def ofString (s : String) : List Glyph := ofChars s.toList

@[simp] theorem masked_char (c : Char) : masked (char c) = c := rfl

@[simp] theorem map_masked_ofChars (s : List Char) : (ofChars s).map masked = s := by
  rw [ofChars, List.map_map]
  exact List.map_id s

@[simp] theorem text_ofChars (s : List Char) : text (ofChars s) = String.ofList s := by
  rw [text, map_masked_ofChars]

theorem map_masked_ofString (s : String) : (ofString s).map masked = s.toList := map_masked_ofChars _

theorem ofString_inj {s t : String} : ofString s = ofString t ↔ s = t := by
  refine ⟨fun h => String.toList_inj.1 ?_, congrArg ofString⟩
  rw [← map_masked_ofString, h, map_masked_ofString]

@[simp] theorem any_isHalf_ofChars (s : List Char) : (ofChars s).any isHalf = false := by
  simp [ofChars, isHalf]

end Glyph

/-- A text that holds half a pair. -/
structure Torn where
  glyphs : List Glyph
  isTorn : glyphs.any Glyph.isHalf = true
  deriving DecidableEq, Repr

/-- The first halves in a text that has no UTF-8. -/
structure Unencodable where
  /-- the characters before them -/
  start : Nat
  /-- the halves right after the first -/
  further : Nat
  first : Fin 0x800
  deriving DecidableEq, Repr

/-- What is said of a text that has no UTF-8 (`UnicodeEncodeError`). -/
def Unencodable.message (f : Unencodable) : String :=
  let which :=
    if f.further = 0 then " '\\u" ++ String.ofList (Glyph.unitDigits f.first) ++ s!"' in position {f.start}"
    else s!"s in position {f.start}-{f.start + f.further}"
  "'utf-8' codec can't encode character" ++ which ++ ": surrogates not allowed"

namespace Torn

/-- Glyphs as a text that holds half a pair, if they hold one. -/
def of? (gs : List Glyph) : Option Torn := if h : gs.any Glyph.isHalf then some ⟨gs, h⟩ else none

/-- The text that a torn text is taken for. -/
def text (t : Torn) : String := Glyph.text t.glyphs

/-- A torn text in a message of a check. -/
def lossyText (t : Torn) : String := String.ofList (t.glyphs.flatMap Glyph.lossy)

/-- The first halves among some glyphs that stand behind `start` characters. -/
def faultFrom (start : Nat) : List Glyph → Unencodable
  | [] => ⟨start, 0, 0⟩
  | .char _ :: rest => faultFrom (start + 1) rest
  | .half n :: rest => ⟨start, (rest.takeWhile Glyph.isHalf).length, n⟩

/-- Why a torn text cannot be written. -/
def fault (t : Torn) : Unencodable := faultFrom 0 t.glyphs

theorem of?_eq_none_iff {gs : List Glyph} : of? gs = none ↔ gs.any Glyph.isHalf = false := by
  rw [of?]
  split
  · next h => simp [h]
  · next h => simp [h]

@[simp] theorem of?_ofChars (s : List Char) : of? (Glyph.ofChars s) = none :=
  of?_eq_none_iff.2 (Glyph.any_isHalf_ofChars s)

end Torn
end LintMerge
