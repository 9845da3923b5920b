/-
# Integers are read as they were written

An integer is written as its digits, without zeros before them and after a minus sign when
it is negative. So it is read again (`number_toString`) where it ends before what follows,
unless it has more digits than are read.
-/

import LintMerge.Proofs.Json.Tokens

namespace LintMerge
namespace Json

/-- No zero stands before the digits of a number. -/
theorem head?_toDigits_ne {n : Nat} (hn : 0 < n) : (Nat.toDigits 10 n).head? ≠ some '0' := by
  induction n using Nat.strongRecOn with
  | _ n ih =>
    by_cases hsmall : n < 10
    · have hall : ∀ k < 10, 0 < k → Nat.digitChar k ≠ '0' := by decide
      rw [Nat.toDigits_of_lt_base hsmall, List.head?_cons]
      exact fun h => hall n hsmall hn (Option.some.inj h)
    · rw [Nat.toDigits_of_base_le (by decide) (by omega), List.head?_append]
      have hhead := ih (n / 10) (by omega) (by omega)
      cases hdigits : Nat.toDigits 10 (n / 10) with
      | nil => exact absurd hdigits Nat.toDigits_ne_nil
      | cons c cs =>
        rw [hdigits] at hhead
        exact hhead

/-- What a written integer starts with. -/
def StartsNumber (c : Char) : Prop := c = '-' ∨ Text.isAsciiDigit c = true

/-- A written integer starts with a minus sign or a digit. -/
theorem exists_cons_toString (n : Int) : ∃ c s, (toString n).toList = c :: s ∧ StartsNumber c := by
  rw [Int.toString_eq_repr, Int.repr_eq_if]
  split
  · rw [Nat.toList_repr]
    cases hdigits : Nat.toDigits 10 n.toNat with
    | nil => exact absurd hdigits Nat.toDigits_ne_nil
    | cons c cs =>
      exact ⟨c, cs, rfl, .inr (Text.isAsciiDigit_of_mem_toDigits (hdigits ▸ List.mem_cons_self))⟩
  · rw [String.toList_append]
    exact ⟨'-', _, rfl, .inl rfl⟩

/-- No number starts with a character that is neither a minus sign nor a digit. -/
theorem StartsNumber.ne {c d : Char} (hc : StartsNumber c) (hminus : d ≠ '-')
    (hdigit : Text.isAsciiDigit d = false) : c ≠ d := by
  rintro rfl
  rcases hc with hc | hc
  · exact hminus hc
  · rw [hdigit] at hc
    cases hc

namespace Strict

/-- The digits of a number that is not too long are read as the number. -/
theorem magnitude_toDigits (negative : Bool) (n : Nat) {rest : List Char} (hrest : Ends rest)
    (hn : (Nat.toDigits 10 n).length + (if negative then 1 else 0) ≤ Text.maxDigits) :
    magnitude negative (Nat.toDigits 10 n ++ rest) =
      .ok (.int (if negative then -(n : Int) else n), rest) := by
  have hall : ∀ c ∈ Nat.toDigits 10 n, Text.isAsciiDigit c = true := fun c hc =>
    Text.isAsciiDigit_of_mem_toDigits hc
  have hdigits : digits (Nat.toDigits 10 n ++ rest) = Nat.toDigits 10 n := digits_append hall hrest.1
  rcases Nat.eq_zero_or_pos n with rfl | hpos
  · rw [Nat.toDigits_zero, List.singleton_append, magnitude, hrest.1, hrest.2, if_neg Bool.false_ne_true]
    cases negative <;> rfl
  · have hzero := head?_toDigits_ne hpos
    have hvalue := natOf_toDigits n
    revert hn hall hdigits hzero hvalue
    cases Nat.toDigits 10 n with
    | nil =>
      intro _ _ _ _ hvalue
      exact absurd hvalue (by rw [natOf]; exact Nat.ne_of_lt hpos)
    | cons c cs =>
      intro hn hall hdigits hzero hvalue
      have hnotZero : c ≠ '0' := fun h => hzero (by rw [h]; rfl)
      have hnotI : c ≠ 'I' := by
        rintro rfl
        exact absurd (hall 'I' List.mem_cons_self) (by decide)
      rw [List.cons_append] at hdigits ⊢
      rw [magnitude]
      · rw [hdigits, ← List.cons_append, List.drop_left, hrest.2, hvalue, if_neg (by simp),
          if_neg Bool.false_ne_true, if_neg (by omega)]
      · exact List.cons_ne_nil _ _
      · exact fun _ h => hnotZero (List.cons.inj h).1
      · exact fun _ h => hnotI (List.cons.inj h).1

/-- A text that starts with a digit is read as a number without a sign. -/
theorem number_of_isAsciiDigit {c : Char} (hc : Text.isAsciiDigit c = true) (s : List Char) :
    number (c :: s) = magnitude false (c :: s) := by
  unfold number
  split
  · next heq =>
    cases heq
    exact absurd hc (by decide)
  · next heq =>
    cases heq
    exact absurd hc (by decide)
  · rfl
  · next heq =>
    cases heq
    rw [if_pos hc]
  · next heq => cases heq

/-- **Integers round trip** where they end. -/
theorem number_toString (n : Int) {rest : List Char} (hrest : Ends rest)
    (hn : (toString n).length ≤ Text.maxDigits) :
    number ((toString n).toList ++ rest) = .ok (.int n, rest) := by
  rw [Int.toString_eq_repr, Int.repr_eq_if] at hn ⊢
  by_cases hneg : 0 ≤ n
  · rw [if_pos hneg, ← String.length_toList, Nat.toList_repr] at hn
    rw [if_pos hneg, Nat.toList_repr]
    have hread := magnitude_toDigits false n.toNat hrest hn
    rw [if_neg Bool.false_ne_true, Int.toNat_of_nonneg hneg] at hread
    cases hdigits : Nat.toDigits 10 n.toNat with
    | nil => exact absurd hdigits Nat.toDigits_ne_nil
    | cons c cs =>
      have hc : Text.isAsciiDigit c = true :=
        Text.isAsciiDigit_of_mem_toDigits (hdigits ▸ List.mem_cons_self)
      rw [hdigits] at hread
      rw [List.cons_append, number_of_isAsciiDigit hc]
      exact hread
  · rw [if_neg hneg, String.length_append, ← String.length_toList (s := Nat.repr _), Nat.toList_repr,
      Nat.add_comm] at hn
    rw [if_neg hneg, String.toList_append, Nat.toList_repr]
    have hread := magnitude_toDigits true (-n).toNat hrest hn
    rw [if_pos rfl, Int.toNat_of_nonneg (by omega), Int.neg_neg] at hread
    exact hread

end Strict
end Json
end LintMerge
