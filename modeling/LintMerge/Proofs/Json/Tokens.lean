/-
# The small parts of a written document

White space is skipped, the digits of a number stand for the number, and what an escape
writes of a control character is read as that character. `Ends` tells where a number
ends: at the end of the text, or before a character that no number goes on with.
-/

import LintMerge.Json.Strict
import LintMerge.Json.Writer

namespace LintMerge

namespace Text

theorem isAsciiDigit_of_isDigit {c : Char} (h : c.isDigit = true) : isAsciiDigit c = true := by
  rw [Char.isDigit, Bool.and_eq_true, decide_eq_true_iff, decide_eq_true_iff] at h
  rw [isAsciiDigit, Bool.and_eq_true, decide_eq_true_iff, decide_eq_true_iff]
  exact h

/-- The digits of a number are digits. -/
theorem isAsciiDigit_of_mem_toDigits {n : Nat} {c : Char} (h : c ∈ Nat.toDigits 10 n) :
    isAsciiDigit c = true :=
  isAsciiDigit_of_isDigit (Nat.isDigit_of_mem_toDigits (by decide) (by decide) h)

/-- What a row of digits stands for, digit by digit. -/
theorem ofDigits_map (ds : List Char) :
    ofDigits (ds.map fun c => c.toNat - 48) = Nat.ofDigitChars 10 ds 0 := by
  rw [ofDigits, List.foldl_map, Nat.ofDigitChars_eq_foldl]
  rfl

end Text

namespace Json

/-- Blanks do not count. -/
theorem skip_append {ws s : List Char} (h : ∀ c ∈ ws, isSpace c = true) : skip (ws ++ s) = skip s :=
  List.dropWhile_append_of_pos h

@[simp] theorem skip_cons_of_not {c : Char} {s : List Char} (h : isSpace c = false) :
    skip (c :: s) = c :: s :=
  List.dropWhile_cons_of_neg (by rw [h]; exact Bool.false_ne_true)

/-- **Numbers.** The digits of a number stand for it. -/
theorem natOf_toDigits (n : Nat) : natOf (Nat.toDigits 10 n) = n := by
  rw [natOf, Text.ofDigits_map, Nat.ofDigitChars_ten_toDigits]

/-- The digits at the start of a text end where no digit follows. -/
theorem digits_append {ds s : List Char} (hds : ∀ c ∈ ds, Text.isAsciiDigit c = true)
    (hs : digits s = []) : digits (ds ++ s) = ds := by
  rw [digits, List.takeWhile_append_of_pos hds]
  rw [digits] at hs
  rw [hs, List.append_nil]

/-- A number ends before a text: it does not start with a digit, a fraction or an exponent. -/
def Ends (s : List Char) : Prop := digits s = [] ∧ Strict.goesOn s = false

theorem ends_nil : Ends [] := ⟨rfl, rfl⟩

/-- A number ends before a blank. -/
theorem ends_of_isSpace {c : Char} {s : List Char} (h : isSpace c = true) : Ends (c :: s) := by
  have hc : c = ' ' ∨ c = '\t' ∨ c = '\n' ∨ c = '\r' := by simpa [isSpace, or_assoc] using h
  rcases hc with rfl | rfl | rfl | rfl <;> exact ⟨rfl, rfl⟩

/-- A number ends before blanks after which it would end. -/
theorem Ends.append {ws s : List Char} (hws : ∀ c ∈ ws, isSpace c = true) (hs : Ends s) :
    Ends (ws ++ s) := by
  cases ws with
  | nil => exact hs
  | cons c ws => exact ends_of_isSpace (hws c List.mem_cons_self)

/-- The value of a hexadecimal digit. -/
theorem hexValue?_hexDigit (n : Nat) : hexValue? (hexDigit n) = some (n % 16) := by
  have hall : ∀ k < 16, hexValue? (Nat.digitChar k) = some k := by decide
  exact hall _ (Nat.mod_lt n (by decide))

/-- A hexadecimal digit takes one octet. -/
theorem utf8Size_hexDigit (n : Nat) : (hexDigit n).utf8Size = 1 := by
  have hall : ∀ k < 16, (Nat.digitChar k).utf8Size = 1 := by decide
  exact hall _ (Nat.mod_lt n (by decide))

end Json
end LintMerge
