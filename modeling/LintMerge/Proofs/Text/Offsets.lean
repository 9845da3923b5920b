/-
# The positions at offsets

The positions at several offsets are found in one walk, which meets their targets in ascending
order, ends with the last of them and gives those that lie behind the text the position of its end.
Here the same positions are told one by one and without a walk: the place of an offset is the
nearest one that the text has (`Position.place`), its line is one more than the line feeds before
it, and its column counts from the place behind the last of these (`Position.ofPlace`). The two
agree for every text and all offsets (`Position.ofOffsets_direct`), so what else is asked for does
not change what is found at an offset, and a later place has a later position.
-/

import LintMerge.Proofs.Text.Boundaries

namespace LintMerge
namespace Position

variable {s : List Char} {p q : Nat}

/-- The place that an offset stands for: the start of the text if it is negative, the end of the
text if it is past it. -/
def place (s : List Char) (offset : Int) : Nat := min (max offset 0).toNat s.length

/-- The places of the line feeds before a place, in order. -/
def lineFeeds (s : List Char) (p : Nat) : List Nat := (List.range p).filter fun j => s[j]? = some '\n'

/-- The start of the line of a place: just behind the last line feed before it, or the start of the
text. -/
def lineStart (s : List Char) (p : Nat) : Nat := ((lineFeeds s p).getLast?.map (· + 1)).getD 0

/-- The position of a place. -/
def ofPlace (s : List Char) (p : Nat) : Position where
  line := 1 + (s.take p).count '\n'
  column := 1 + p - lineStart s p

theorem lineStart_succ (h : s[p]? = some '\n') : lineStart s (p + 1) = p + 1 := by
  simp [lineStart, lineFeeds, List.range_succ, h]

theorem lineStart_succ_of_ne (h : s[p]? ≠ some '\n') : lineStart s (p + 1) = lineStart s p := by
  simp [lineStart, lineFeeds, List.range_succ, h]

theorem lineStart_le (s : List Char) (p : Nat) : lineStart s p ≤ p := by
  induction p with
  | zero => exact Nat.le_refl 0
  | succ p ih =>
    by_cases h : s[p]? = some '\n'
    · exact Nat.le_of_eq (lineStart_succ h)
    · rw [lineStart_succ_of_ne h]
      exact Nat.le_succ_of_le ih

theorem take_succ_of_lt (hp : p < s.length) : s.take (p + 1) = s.take p ++ [s[p]] := by
  rw [List.take_add_one, List.getElem?_eq_getElem hp]
  rfl

/-- The position of the next place: after a line feed a new line starts. -/
theorem ofPlace_succ (hp : p < s.length) : ofPlace s (p + 1) = (ofPlace s p).next s[p] := by
  have hchar : s[p]? = some s[p] := List.getElem?_eq_getElem hp
  rw [ofPlace, take_succ_of_lt hp, List.count_append, List.count_singleton, next]
  by_cases hfeed : s[p] = '\n'
  · rw [if_pos hfeed, if_pos (by rw [hfeed]; rfl), lineStart_succ (hfeed ▸ hchar)]
    simp [ofPlace, Nat.add_assoc]
  · have hother : s[p]? ≠ some '\n' := fun h => hfeed (Option.some.inj (hchar.symm.trans h))
    have hle := lineStart_le s p
    have hcolumn : 1 + (p + 1) - lineStart s p = 1 + p - lineStart s p + 1 := by omega
    rw [if_neg hfeed, if_neg (by simpa using hfeed), lineStart_succ_of_ne hother, hcolumn]
    rfl

/-- **The position behind the characters before a place is that of the place.** -/
theorem behind_take (hp : p ≤ s.length) : behind (s.take p) = ofPlace s p := by
  induction p with
  | zero => rfl
  | succ p ih =>
    rw [take_succ_of_lt hp, behind_append, ih (Nat.le_of_succ_le hp), after_cons, after_nil,
      ofPlace_succ hp]

theorem ofOffset_place (s : List Char) (offset : Int) :
    ofOffset s offset.toNat = ofPlace s (place s offset) := by
  have hmax : (max offset 0).toNat = offset.toNat := by omega
  rw [ofOffset_eq, List.take_eq_take_min, place, hmax, behind_take (Nat.min_le_right _ _)]

/-- Of two places in a text the later one has the later position. -/
theorem before_ofPlace (hpq : p < q) (hq : q ≤ s.length) : (ofPlace s p).Before (ofPlace s q) := by
  obtain ⟨between, hbetween⟩ : s.take p <+: s.take q := List.take_prefix_take_left (Nat.le_of_lt hpq)
  have hne : between ≠ [] := by
    rintro rfl
    have hlength := congrArg List.length hbetween
    rw [List.append_nil, List.length_take, List.length_take] at hlength
    omega
  rw [← behind_take hq, ← behind_take (Nat.le_trans (Nat.le_of_lt hpq) hq), ← hbetween, behind_append]
  exact before_after _ hne

/-- **One walk finds what is told directly.** The positions at some offsets are those of their
places, one for each in the same order. So what is found at an offset is the same wherever it stands
among others, and of two offsets the one with the later place has the later position. -/
theorem ofOffsets_direct (s : List Char) (offsets : List Int) :
    ofOffsets s offsets = offsets.map (fun o => ofPlace s (place s o)) ∧
      (ofOffsets s offsets).length = offsets.length ∧
      (∀ (others : List Int) (i j : Nat), offsets[i]? = others[j]? →
        (ofOffsets s offsets)[i]? = (ofOffsets s others)[j]?) ∧
      ∀ o o', place s o < place s o' → (ofPlace s (place s o)).Before (ofPlace s (place s o')) := by
  have hdirect (offsets : List Int) :
      ofOffsets s offsets = offsets.map fun o => ofPlace s (place s o) := by
    rw [ofOffsets_eq]
    exact List.map_congr_left fun o _ => ofOffset_place s o
  refine ⟨hdirect offsets, ?_, fun others i j hij => ?_, fun o o' ho => ?_⟩
  · rw [hdirect, List.length_map]
  · rw [hdirect, hdirect, List.getElem?_map, List.getElem?_map, hij]
  · exact before_ofPlace ho (Nat.min_le_right _ _)

/-- The conditions in `ofOffsets_direct` are met in a text of two lines: an offset past its end, one
before its start and one behind the line feed are found, and the last of them, which stands alone
elsewhere, is before the first. -/
theorem ofOffsets_direct_sample :
    ofOffsets ['a', '\n', 'b'] [9, -1, 2] = [⟨2, 2⟩, ⟨1, 1⟩, ⟨2, 1⟩] ∧
      ([9, -1, 2] : List Int)[2]? = ([2] : List Int)[0]? ∧
      (ofOffsets ['a', '\n', 'b'] [9, -1, 2])[2]? = (ofOffsets ['a', '\n', 'b'] [2])[0]? ∧
      place ['a', '\n', 'b'] 2 < place ['a', '\n', 'b'] 9 ∧
      (ofPlace ['a', '\n', 'b'] (place ['a', '\n', 'b'] 2)).Before
        (ofPlace ['a', '\n', 'b'] (place ['a', '\n', 'b'] 9)) := by
  obtain ⟨hdirect, -, hsame, hbefore⟩ := ofOffsets_direct ['a', '\n', 'b'] [9, -1, 2]
  refine ⟨hdirect.trans (by decide), by decide, hsame [2] 2 0 (by decide), by decide, ?_⟩
  exact hbefore 2 9 (by decide)

end Position
end LintMerge
