/-
# The order of paths

Paths are sorted by their keys, the root first and then segment by segment, which is the
order of lists of texts (`Path.atMost_iff`). A path that is written in regular form below
a directory is known by its text (`Path.join_ofText_injective`).
-/

import Mathlib.Data.List.Lex
import Mathlib.Data.String.Basic
import LintMerge.Path
import LintMerge.Proofs.Text.Splitting

namespace LintMerge
namespace Path

/-- Comparing segment by segment is comparing lists of texts. -/
theorem go_ne_gt_iff (xs ys : List String) : (compareParts.go xs ys != .gt) = true ↔ ¬ ys < xs := by
  induction xs generalizing ys with
  | nil => cases ys <;> simp [compareParts.go]
  | cons x xs ih =>
    cases ys with
    | nil => simp [compareParts.go]
    | cons y ys =>
      rw [compareParts.go, List.cons_lt_cons_iff]
      rcases lt_trichotomy x y with hlt | rfl | hgt
      · simp [hlt, not_lt_of_gt hlt, ne_of_gt hlt]
      · simp only [lt_irrefl, if_false, ih, false_or, true_and]
      · simp [hgt, not_lt_of_gt hgt]

/-- **Paths are compared by their keys.** -/
theorem atMost_iff (p q : Path) : atMost p q = true ↔ p.sortKey ≤ q.sortKey :=
  (go_ne_gt_iff _ _).trans not_lt

theorem atMost_trans (p q r : Path) (hpq : atMost p q = true) (hqr : atMost q r = true) :
    atMost p r = true := by
  rw [atMost_iff] at *
  exact le_trans hpq hqr

theorem atMost_total (p q : Path) : (atMost p q || atMost q p) = true := by
  rw [Bool.or_eq_true, atMost_iff, atMost_iff]
  exact le_total _ _

/-- The segments of a regular text are its parts. -/
theorem ofText_regular {s : String} (hs : Text.Regular s.toList) : ofText s = ⟨0, parts s⟩ := by
  have hslashes : slashesOf s.toList = 0 := by
    have hnone : s.toList.takeWhile (· = '/') = [] := by
      cases h : s.toList with
      | nil => rfl
      | cons c rest =>
        have hhead := hs.head?_ne
        rw [h] at hhead
        exact List.takeWhile_cons_of_neg (by simpa using hhead)
    rw [slashesOf, hnone]
    rfl
  have hparts : (parts s).filter isSegment = parts s := by
    rw [List.filter_eq_self]
    intro part hpart
    obtain ⟨cs, hcs, rfl⟩ := List.mem_map.1 hpart
    obtain ⟨hne, hdot⟩ := hs cs hcs
    have hone : String.ofList cs ≠ "" := fun h => hne (String.ofList_eq_empty_iff.1 h)
    have htwo : String.ofList cs ≠ "." := fun h => hdot (String.ofList_injective h)
    simp [isSegment, hone, htwo]
  rw [ofText, hslashes, hparts]

/-- **Regular texts below a directory lead to one path only if they are one.** -/
theorem join_ofText_injective {root : Path} {s s' : String} (hs : Text.Regular s.toList)
    (hs' : Text.Regular s'.toList) (h : root.join (ofText s) = root.join (ofText s')) : s = s' := by
  rw [ofText_regular hs, ofText_regular hs'] at h
  have hjoined : root.segments ++ parts s = root.segments ++ parts s' := congrArg segments h
  have hparts := List.map_injective_iff.2 (fun _ _ => String.ofList_injective)
    (List.append_cancel_left hjoined)
  rw [← String.toList_inj, ← Text.joinWith_splitOn '/' s.toList, ← Text.joinWith_splitOn '/' s'.toList,
    hparts]

end Path
end LintMerge
