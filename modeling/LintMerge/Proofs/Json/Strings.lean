/-
# Strings are read as they were written

An escape is read as the character that it was written for (`string_escapeChar`), and so a
string between quotes as its characters (`quoted_writeString`), whatever they are.
-/

import LintMerge.Proofs.Check.Outcome
import LintMerge.Proofs.Json.Tokens

namespace LintMerge
namespace Json
namespace Strict

/-- Four digits, the first two of them zero, stand for a number of one octet. -/
theorem unit_hexDigits (a b : Nat) (s : List Char) :
    unit ('0' :: '0' :: hexDigit a :: hexDigit b :: s) = .ok (a % 16 * 16 + b % 16, s) := by
  have hsize : ¬ Text.Utf8.size ('0' :: '0' :: hexDigit a :: hexDigit b :: s) < 4 := by
    simp only [Text.Utf8.size, List.foldr_cons, utf8Size_hexDigit]
    have hzero : ('0' : Char).utf8Size = 1 := rfl
    omega
  have hzero : hexValue? '0' = some 0 := rfl
  rw [unit, if_neg hsize]
  simp only [unit.go, hzero, hexValue?_hexDigit]
  rw [Nat.zero_mul, Nat.zero_add]

/-- A control character is read from its escape. -/
theorem codePoint_control {c : Char} (hc : c.toNat < 32) (s : List Char) :
    codePoint ('0' :: '0' :: hexDigit (c.toNat / 16) :: hexDigit c.toNat :: s) = .ok (c, s) := by
  have hnumber : c.toNat / 16 % 16 * 16 + c.toNat % 16 = c.toNat := by omega
  rw [codePoint, unit_hexDigits, hnumber]
  refine Faulty.bind_eq_ok.2 ⟨_, rfl, ?_⟩
  dsimp only
  rw [if_neg (by omega), if_neg (by omega), Char.ofNat_toNat]

/-- **What is written for a character is read as it.** -/
theorem string_escapeChar (c : Char) (fuel : Nat) (done s : List Char) :
    string (fuel + 1) done (escapeChar c ++ s) = string fuel (c :: done) s := by
  by_cases hquote : c = '"'
  · subst hquote
    rfl
  by_cases hback : c = '\\'
  · subst hback
    rfl
  unfold escapeChar
  rw [if_neg hquote, if_neg hback]
  split
  · next h => subst h; rfl
  split
  · next h => subst h; rfl
  split
  · next h => subst h; rfl
  split
  · next h => subst h; rfl
  split
  · next h => subst h; rfl
  split
  · next hc =>
    have hread := codePoint_control hc s
    simp only [List.cons_append, List.nil_append, string]
    rw [hread]
  · next hc =>
    rw [List.singleton_append, string]
    · rw [if_neg hc]
    · exact hquote
    · exact hback

/-- A string is read up to the quote after it. -/
theorem string_flatMap (s : List Char) : ∀ (fuel : Nat) (done rest : List Char), s.length < fuel →
    string fuel done (s.flatMap escapeChar ++ '"' :: rest) = .ok (done.reverse ++ s, rest) := by
  induction s with
  | nil =>
    intro fuel done rest hfuel
    obtain ⟨fuel, rfl⟩ := Nat.exists_eq_add_of_lt hfuel
    rw [List.append_nil]
    rfl
  | cons c s ih =>
    intro fuel done rest hfuel
    rw [List.length_cons] at hfuel
    obtain ⟨fuel, rfl⟩ : ∃ k, fuel = k + 1 := ⟨fuel - 1, by omega⟩
    rw [List.flatMap_cons, List.append_assoc, string_escapeChar, ih fuel (c :: done) rest (by omega),
      List.reverse_cons, List.append_assoc, List.singleton_append]

/-- Something is written for each character. -/
theorem length_le_flatMap (s : List Char) : s.length ≤ (s.flatMap escapeChar).length := by
  have hone (c : Char) : 1 ≤ (escapeChar c).length := by
    unfold escapeChar
    repeat' split
    all_goals exact Nat.succ_le_succ (Nat.zero_le _)
  induction s with
  | nil => exact Nat.zero_le _
  | cons c s ih =>
    rw [List.flatMap_cons, List.length_append, List.length_cons]
    have hc := hone c
    omega

/-- **Strings round trip.** What stands between the quotes is read as what was written. -/
theorem quoted_writeString (s : String) (rest : List Char) :
    quoted (s.toList.flatMap escapeChar ++ '"' :: rest) = .ok (s, rest) := by
  have hlength := length_le_flatMap s.toList
  rw [quoted, string_flatMap s.toList _ [] rest (by rw [List.length_append]; omega)]
  refine Faulty.bind_eq_ok.2 ⟨_, rfl, ?_⟩
  show Except.ok (String.ofList s.toList, rest) = _
  rw [String.ofList_toList]

end Strict
end Json
end LintMerge
