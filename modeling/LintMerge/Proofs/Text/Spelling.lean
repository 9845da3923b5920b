/-
# Spellings of a text

White space around a text and the case of its letters are matters of spelling where the text is
trimmed and written in small letters: white space may be put around it (`trim_pad`), and each of its
ASCII letters may be written small or large (`lower_map_toLower`). The second is less plain than it
looks. The small letter of `Σ` depends on the letters around it, so that it has to be seen that an
ASCII letter has case, and is not skipped as a mark, in both of its forms.
-/

import Mathlib.Data.List.TakeWhile
import LintMerge.Text.Letter
import LintMerge.Proofs.Text.Splitting

namespace LintMerge
namespace Text

/-- White space around a text is what is left out of it. -/
theorem exists_trim (s : List Char) : ∃ left right, s = left ++ trim s ++ right ∧
    (∀ c ∈ left, isBlank c = true) ∧ ∀ c ∈ right, isBlank c = true := by
  refine ⟨s.takeWhile isBlank, ((trimStart s).reverse.takeWhile isBlank).reverse, ?_,
    fun c hc => List.mem_takeWhile_imp hc,
    fun c hc => List.mem_takeWhile_imp (List.mem_reverse.1 hc)⟩
  have hend : trimEnd (trimStart s) ++ ((trimStart s).reverse.takeWhile isBlank).reverse =
      trimStart s := by
    rw [trimEnd, ← List.reverse_append, List.takeWhile_append_dropWhile, List.reverse_reverse]
  rw [trim, List.append_assoc, hend, trimStart, List.takeWhile_append_dropWhile]

/-- **White space around a text does not count.** -/
theorem trim_pad {left right : List Char} (hleft : ∀ c ∈ left, isBlank c = true)
    (hright : ∀ c ∈ right, isBlank c = true) (s : List Char) :
    trim (left ++ s ++ right) = trim s := by
  have hend (s : List Char) : trimEnd (s ++ right) = trimEnd s := by
    rw [trimEnd, trimEnd, List.reverse_append,
      List.dropWhile_append_of_pos fun c hc => hright c (List.mem_reverse.1 hc)]
  rw [trim, trim, trimStart, trimStart, List.append_assoc, List.dropWhile_append_of_pos hleft,
    List.dropWhile_append]
  split
  · next hblank =>
    rw [List.isEmpty_iff.1 hblank, List.dropWhile_eq_nil_iff.2 hright]
  · exact hend _

theorem trim_trim (s : List Char) : trim (trim s) = trim s := by
  obtain ⟨left, right, hs, hleft, hright⟩ := exists_trim s
  exact (trim_pad hleft hright (trim s)).symm.trans (congrArg trim hs.symm)

/-- Trimming goes with what is done to characters one by one, white space staying white space. -/
theorem trim_map {f : Char → Char} (hf : ∀ c, isBlank (f c) = isBlank c) (s : List Char) :
    trim (s.map f) = (trim s).map f := by
  have hblank : isBlank ∘ f = isBlank := funext hf
  rw [trim, trim, trimStart, trimStart, trimEnd, trimEnd, List.dropWhile_map, hblank,
    ← List.map_reverse, List.dropWhile_map, hblank, ← List.map_reverse]

/-- Splitting goes with what is done to characters one by one, separators staying separators. -/
theorem splitOn_map {f : Char → Char} {sep : Char} (hf : ∀ c, f c = sep ↔ c = sep) (s : List Char) :
    splitOn sep (s.map f) = (splitOn sep s).map (List.map f) := by
  induction s with
  | nil => rfl
  | cons c s ih =>
    rw [List.map_cons, splitOn, splitOn, ih]
    by_cases hc : c = sep
    · rw [if_pos ((hf c).2 hc), if_pos hc]
      rfl
    · rw [if_neg (mt (hf c).1 hc), if_neg hc]
      cases hs : splitOn sep s with
      | nil => exact absurd hs (splitOn_ne_nil sep s)
      | cons part more => rfl

/-- A character is its own small form, or it is one of the large ASCII letters. -/
theorem toLower_cases (c : Char) :
    c.toLower = c ∨ ∃ i < 26, c = Char.ofNat (65 + i) ∧ c.toLower = Char.ofNat (97 + i) := by
  have hascii : ∀ n < 128, (Char.ofNat n).toLower = Char.ofNat n ∨ ∃ i < 26,
      Char.ofNat n = Char.ofNat (65 + i) ∧ (Char.ofNat n).toLower = Char.ofNat (97 + i) := by
    decide
  by_cases hc : c.toNat < 128
  · have hp := hascii c.toNat hc
    rwa [Char.ofNat_toNat] at hp
  · refine .inl (dif_neg fun hletter => hc ?_)
    exact Nat.lt_of_le_of_lt (UInt32.le_iff_toNat_le.1 hletter.2) (by decide)

/-- What is the same of both forms of each ASCII letter is the same of each character and its small
form. -/
theorem apply_toLower {α : Type} {f : Char → α}
    (h : ∀ i < 26, f (Char.ofNat (97 + i)) = f (Char.ofNat (65 + i))) (c : Char) :
    f c.toLower = f c := by
  rcases toLower_cases c with hsame | ⟨i, hi, hlarge, hsmall⟩
  · rw [hsame]
  · rw [hsmall, hlarge, h i hi]

theorem isBlank_toLower (c : Char) : isBlank c.toLower = isBlank c := apply_toLower (by decide) c

theorem lowerChar_toLower (c : Char) : lowerChar c.toLower = lowerChar c := apply_toLower (by decide) c

/-- A character that is no ASCII letter is no small form of another one. -/
theorem toLower_eq_iff {d : Char} (hlarge : ∀ i < 26, Char.ofNat (65 + i) ≠ d)
    (hsmall : ∀ i < 26, Char.ofNat (97 + i) ≠ d) (c : Char) : c.toLower = d ↔ c = d := by
  rcases toLower_cases c with hsame | ⟨i, hi, hc, hlower⟩
  · rw [hsame]
  · rw [hlower, hc]
    exact iff_of_false (hsmall i hi) (hlarge i hi)

theorem toNat_letter : ∀ i < 26, (Char.ofNat (65 + i)).toNat = 65 + i ∧
    (Char.ofNat (97 + i)).toNat = 97 + i := by
  decide

/-- The marks that case ignores lie before, between and after the ASCII letters. -/
theorem ignorable_sound : ∀ r ∈ ignorableRanges.toList,
    r.2 < 65 ∨ (90 < r.1 ∧ r.2 < 97) ∨ 122 < r.1 := by
  decide +kernel

/-- An ASCII letter is skipped as a mark in neither of its forms. -/
theorem ignorable_toLower (c : Char) :
    inRanges ignorableRanges c.toLower.toNat = inRanges ignorableRanges c.toNat := by
  refine apply_toLower (f := fun c => inRanges ignorableRanges c.toNat) (fun i hi => ?_) c
  have hnone (n : Nat) (hn : (65 ≤ n ∧ n ≤ 90) ∨ (97 ≤ n ∧ n ≤ 122)) :
      inRanges ignorableRanges n = false := by
    rw [inRanges, ← Array.any_toList, List.any_eq_false]
    intro r hr
    have hout := ignorable_sound r hr
    simp only [Bool.and_eq_true, decide_eq_true_eq]
    omega
  rw [(toNat_letter i hi).1, (toNat_letter i hi).2, hnone (65 + i) (by omega),
    hnone (97 + i) (by omega)]

/-- An ASCII letter has case in both of its forms. -/
theorem cased_toLower (c : Char) :
    inRanges casedRanges c.toLower.toNat = inRanges casedRanges c.toNat := by
  refine apply_toLower (f := fun c => inRanges casedRanges c.toNat) (fun i hi => ?_) c
  have hrange (n first last : Nat) (hr : (first, last) ∈ casedRanges.toList.take 2)
      (hn : first ≤ n ∧ n ≤ last) : inRanges casedRanges n = true := by
    rw [inRanges, ← Array.any_toList, List.any_eq_true]
    exact ⟨_, List.mem_of_mem_take hr, by simpa using hn⟩
  rw [(toNat_letter i hi).1, (toNat_letter i hi).2, hrange (65 + i) 65 90 (by decide) (by omega),
    hrange (97 + i) 97 122 (by decide) (by omega)]

theorem startsCased_map_toLower (s : List Char) : startsCased (s.map Char.toLower) = startsCased s := by
  have hskip : (fun c : Char => inRanges ignorableRanges c.toNat) ∘ Char.toLower =
      fun c => inRanges ignorableRanges c.toNat := by
    simp only [Function.comp_def, ignorable_toLower]
  rw [startsCased, startsCased, List.dropWhile_map, hskip]
  cases s.dropWhile fun c => inRanges ignorableRanges c.toNat with
  | nil => rfl
  | cons c rest => exact cased_toLower c

/-- The case of ASCII letters makes no difference to small letters, nor does it before them. -/
theorem lowerFrom_map_toLower (seen s : List Char) :
    lowerFrom (seen.map Char.toLower) (s.map Char.toLower) = lowerFrom seen s := by
  induction s generalizing seen with
  | nil => rfl
  | cons c s ih =>
    have hsigma : c.toLower = 'Σ' ↔ c = 'Σ' := toLower_eq_iff (by decide) (by decide) c
    have hdotted : c.toLower = 'İ' ↔ c = 'İ' := toLower_eq_iff (by decide) (by decide) c
    have hrest := ih (c :: seen)
    rw [List.map_cons] at hrest
    rw [List.map_cons, lowerFrom, lowerFrom, hrest]
    simp only [hsigma, hdotted, startsCased_map_toLower, lowerChar_toLower]

/-- **The case of ASCII letters does not count** in a text that is written in small letters. -/
theorem lower_map_toLower (s : List Char) : lower (s.map Char.toLower) = lower s :=
  lowerFrom_map_toLower [] s

end Text
end LintMerge
