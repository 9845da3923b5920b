/-
# Folding and the null character

A text with its case folded holds `U+0000` exactly when the text does: that character
folds to itself, and no other one folds to it. For the characters of the tables this is
read off the tables, whose runs lead from characters to characters above `U+0000`
(`Text.run_sound`, `Text.foldLong_sound`). So the paths of issues that have no key in the
order of a C library are those that hold `U+0000` themselves.
-/

import LintMerge.Issue.Order

namespace LintMerge

namespace Text

/-- The numbers of the characters other than `U+0000`. -/
def isPositiveChar (n : Nat) : Bool := (0 < n && n < 0xD800) || (0xDFFF < n && n < 0x110000)

theorem ofNat_ne_null {n : Nat} (h : isPositiveChar n = true) : Char.ofNat n ≠ '\x00' := by
  have hvalid : n.isValidChar := by
    simp only [isPositiveChar, Bool.or_eq_true, Bool.and_eq_true, decide_eq_true_eq] at h
    rcases h with ⟨_, h⟩ | h
    · exact .inl h
    · exact .inr h
  intro hnull
  have hnat : n = 0 := by
    rw [Char.ofNat, dif_pos hvalid] at hnull
    exact congrArg Char.toNat hnull
  rw [hnat] at h
  exact absurd h (by decide)

/-- The runs of folded letters lead to characters other than `U+0000`: their ends do, and no
run leads from one side of the surrogates to the other. -/
theorem run_sound : ∀ r ∈ foldRuns.toList, (0 < (r.1 : Int) + r.2.2.2 ∧ (r.2.1 : Int) + r.2.2.2 < 0xD800) ∨
    (0xDFFF < (r.1 : Int) + r.2.2.2 ∧ (r.2.1 : Int) + r.2.2.2 < 0x110000) := by
  decide +kernel

theorem foldLong_sound : ∀ e ∈ foldLong.toList, ∀ n ∈ e.2, isPositiveChar n = true := by
  decide +kernel

theorem isPositiveChar_shift {n : Nat} (h : isPositiveChar n = true) :
    isPositiveChar (shift foldRuns n) = true := by
  rw [shift]
  split
  · next r hr =>
    have hmem := run_sound r (Array.mem_toList_iff.2 (Array.mem_of_find?_eq_some hr))
    have hin := Array.find?_some hr
    simp only [Bool.and_eq_true, decide_eq_true_eq] at hin
    simp only [isPositiveChar, Bool.or_eq_true, Bool.and_eq_true, decide_eq_true_eq]
    omega
  · exact h

/-- No other letter of the first 128 characters becomes `U+0000`. -/
theorem toLower_sound : ∀ n < 128, n ≠ 0 → (Char.ofNat n).toLower ≠ '\x00' := by
  decide +kernel

/-- No other character folds to `U+0000`. -/
theorem null_mem_foldChar {c : Char} : '\x00' ∈ foldChar c ↔ c = '\x00' := by
  constructor
  · intro h
    refine Decidable.byContradiction fun hc => ?_
    have hne : c.toNat ≠ 0 := fun h0 => hc (Char.toNat_inj.1 h0)
    rw [foldChar] at h
    split at h
    · next hlt =>
      rw [List.mem_singleton] at h
      have hlower := toLower_sound c.toNat hlt hne
      rw [Char.ofNat_toNat] at hlower
      exact hlower h.symm
    · next hge =>
      have hpos : isPositiveChar c.toNat = true := by
        have hvalid : c.toNat.isValidChar := c.valid
        simp only [isPositiveChar, Bool.or_eq_true, Bool.and_eq_true, decide_eq_true_eq]
        rcases hvalid with hv | hv <;> omega
      split at h
      · next e he =>
        obtain ⟨n, hn, hnull⟩ := List.mem_map.1 h
        have hmem := Array.mem_toList_iff.2 (Array.mem_of_find?_eq_some he)
        exact ofNat_ne_null (foldLong_sound e hmem n hn) hnull
      · rw [List.mem_singleton] at h
        exact ofNat_ne_null (isPositiveChar_shift hpos) h.symm
  · rintro rfl
    decide

end Text

/-- A folded path holds `U+0000` where the path does. -/
theorem Issue.null_mem_folded {i : Issue} :
    Glyph.char '\x00' ∈ i.folded ↔ Glyph.char '\x00' ∈ i.spelling := by
  have hfold (g : Glyph) : Glyph.char '\x00' ∈ foldGlyph g ↔ g = .char '\x00' := by
    cases g with
    | char c => simp [foldGlyph, Glyph.ofChars, Text.null_mem_foldChar]
    | half n => simp [foldGlyph]
  simp [folded, hfold]

/-- **The paths without a key** are those that hold `U+0000`. -/
theorem Issue.hasKeys_system {i : Issue} :
    i.hasKeys .system = true ↔ Glyph.char '\x00' ∉ i.spelling := by
  have hkey (s : List Glyph) : (Collation.system s).isSome = true ↔ Glyph.char '\x00' ∉ s := by
    rw [← Collation.system_eq_none_iff, Option.isSome_iff_ne_none]
  rw [hasKeys, Bool.and_eq_true, hkey, hkey, null_mem_folded, and_self]

end LintMerge
