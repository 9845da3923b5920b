/-
# Fixes are safe to apply

A fix lists replacements of ranges of one text. To apply them all at once is to copy the text from
left to right and to write the new text of each range where the range stood (`Fix.replaced`). To
apply them one after another is to cut ranges out of a text that changes with each cut, and then the
order counts: what stands before a cut stays where it is, what stands behind it moves.

So ranges are taken from the last to the first. Ranges that lie apart (`Replacement.Apart`) follow
each other in the text when they are ordered by start and end, insertions before what starts where
they stand (`Replacement.stop_le_start`), and from the last to the first each one is cut out of a
part of the text that is still as it was (`Fix.foldr_splice`).

Units of a text may be characters or octets: `spell` writes new text in the units that offsets
count.
-/

import Mathlib.Data.List.Pairwise
import Mathlib.Data.Prod.Lex
import LintMerge.Proofs.Report.RoundTrip

namespace LintMerge

namespace Replacement

variable {r s : Replacement}

/-- The range that is replaced, by which replacements are ordered: by its start, then by its end. -/
def range (r : Replacement) : ℕ ×ₗ ℕ := toLex (r.start, r.stop)

theorem range_le_range_iff : r.range ≤ s.range ↔ r.start < s.start ∨ r.start = s.start ∧ r.stop ≤ s.stop :=
  Prod.Lex.toLex_le_toLex

theorem notBefore_iff : r.notBefore s = true ↔ s.range ≤ r.range := by
  rw [range_le_range_iff, notBefore, Bool.or_eq_true, Bool.and_eq_true, decide_eq_true_iff,
    decide_eq_true_iff, decide_eq_true_iff]

/-- Replacements of two ranges, of which one ends before the other starts, or where it starts. -/
def Apart (r s : Replacement) : Prop := r.range ≠ s.range ∧ (r.stop ≤ s.start ∨ s.stop ≤ r.start)

instance : DecidableRel Apart := fun r s =>
  inferInstanceAs (Decidable (r.range ≠ s.range ∧ (r.stop ≤ s.start ∨ s.stop ≤ r.start)))

theorem Apart.symm (h : Apart r s) : Apart s r := ⟨h.1.symm, h.2.symm⟩

instance : Std.Symm Apart := ⟨fun _ _ => Apart.symm⟩

/-- **Of two ranges that lie apart** the first in the text ends before the second starts. -/
theorem stop_le_start (h : Apart r s) (horder : r.range ≤ s.range) : r.stop ≤ s.start := by
  obtain ⟨hne, hdisjoint⟩ := h
  have hlt := lt_of_le_of_ne horder hne
  rw [range, range, Prod.Lex.toLex_lt_toLex] at hlt
  have hr := r.start_le_stop
  have hs := s.start_le_stop
  omega

/-- A text with one range replaced. -/
def splice {α : Type} (spell : String → List α) (text : List α) (r : Replacement) : List α :=
  text.take r.start ++ spell r.text ++ text.drop r.stop

end Replacement

namespace Fix

open Replacement (Apart splice range notBefore_iff)

variable {α : Type} {spell : String → List α} {text : List α} {f g : Fix} {rs ss : List Replacement}

/-- A text from some offset on with the ranges of a list replaced: the text up to the first range,
its new text, and so on from where the range ends. -/
def replaced (spell : String → List α) (text : List α) (done : Nat) : List Replacement → List α
  | [] => text.drop done
  | r :: rest => (text.take r.start).drop done ++ spell r.text ++ replaced spell text r.stop rest

/-- **From the last to the first, each range is cut out of the text as it was**: what has been
replaced stands behind it. -/
theorem foldr_splice {done : Nat} (hrow : rs.Pairwise fun r s => r.stop ≤ s.start)
    (hdone : ∀ r ∈ rs, done ≤ r.start) (htext : ∀ r ∈ rs, r.stop ≤ text.length) :
    rs.foldr (fun r t => splice spell t r) text = text.take done ++ replaced spell text done rs := by
  induction rs generalizing done with
  | nil => exact (List.take_append_drop done text).symm
  | cons r rs ih =>
    rw [List.pairwise_cons] at hrow
    rw [List.forall_mem_cons] at hdone htext
    have hstart := r.start_le_stop
    have hlength : (text.take r.stop).length = r.stop := List.length_take_of_le htext.1
    have hbefore : text.take r.start = text.take done ++ (text.take r.start).drop done := by
      conv_lhs => rw [← List.take_append_drop done (text.take r.start), List.take_take,
        Nat.min_eq_left hdone.1]
    rw [List.foldr_cons, ih hrow.2 hrow.1 htext.2, splice, List.drop_left' hlength,
      List.take_append_of_le_length (by omega), List.take_take, Nat.min_eq_left hstart, hbefore, replaced]
    simp only [List.append_assoc]

/-- Replacements that lie apart have one order. -/
theorem eq_of_ordered (hapart : rs.Pairwise Apart) (hperm : rs.Perm ss)
    (hrs : rs.Pairwise fun r s => s.range ≤ r.range) (hss : ss.Pairwise fun r s => s.range ≤ r.range) :
    rs = ss := by
  refine List.Perm.eq_of_pairwise (fun r s hr hs hsr hrs => ?_) hrs hss hperm
  by_contra hne
  exact (hapart.forall hr (hperm.mem_iff.2 hs) hne).1 (le_antisymm hrs hsr)

theorem perm_inApplicationOrder (f : Fix) : f.inApplicationOrder.Perm f.replacements :=
  List.mergeSort_perm _ _

/-- The last range in the text comes first. -/
theorem pairwise_inApplicationOrder (f : Fix) :
    f.inApplicationOrder.Pairwise fun r s => s.range ≤ r.range := by
  refine (List.pairwise_mergeSort (fun r s t hrs hst => ?_) (fun r s => ?_) f.replacements).imp
    notBefore_iff.1
  · rw [notBefore_iff] at *
    exact hst.trans hrs
  · rw [Bool.or_eq_true, notBefore_iff, notBefore_iff]
    exact le_total _ _

/-- Replacements that lie apart are applied in the one order from the last to the first. -/
theorem eq_inApplicationOrder (hapart : f.replacements.Pairwise Apart) (hperm : rs.Perm f.replacements)
    (hrs : rs.Pairwise fun r s => s.range ≤ r.range) : rs = f.inApplicationOrder :=
  eq_of_ordered (hapart.perm hperm.symm Apart.symm) (hperm.trans f.perm_inApplicationOrder.symm) hrs
    f.pairwise_inApplicationOrder

/-- **Fixes are safe to apply.** When the ranges of a fix lie apart, its order of application holds
its replacements from the last in the text to the first and does not depend on the order in which
they are listed, while the fix itself is written and read with its replacements as they are listed.
And a text that reaches as far as the ranges comes out, when they are replaced one after another in
that order, as if all of them were replaced at once, from the first in the text to the last. -/
theorem inApplicationOrder_safe (spell : String → List α) (f : Fix)
    (hapart : f.replacements.Pairwise Apart) :
    f.inApplicationOrder.Perm f.replacements ∧
    f.inApplicationOrder.Pairwise (fun r s => s.range ≤ r.range) ∧
    (∀ g : Fix, g.replacements.Perm f.replacements → g.inApplicationOrder = f.inApplicationOrder) ∧
    (∀ form, Fix.check form f.toValue = .ok f) ∧
    ∀ text : List α, (∀ r ∈ f.replacements, r.stop ≤ text.length) →
      ∀ ordered, ordered.Perm f.replacements → ordered.Pairwise (fun r s => r.range ≤ s.range) →
        f.inApplicationOrder.foldl (splice spell) text = replaced spell text 0 ordered := by
  refine ⟨f.perm_inApplicationOrder, f.pairwise_inApplicationOrder, fun g hperm => ?_, fun form => ?_,
    fun text htext ordered hperm hordered => ?_⟩
  · exact eq_inApplicationOrder hapart (g.perm_inApplicationOrder.trans hperm) g.pairwise_inApplicationOrder
  · rw [← f.toValue_compacted]
    exact f.check_compacted form
  · have hreverse : ordered.reverse = f.inApplicationOrder :=
      eq_inApplicationOrder hapart ((List.reverse_perm _).trans hperm) (List.pairwise_reverse.2 hordered)
    have hrow : ordered.Pairwise fun r s => r.stop ≤ s.start :=
      ((hapart.perm hperm.symm Apart.symm).and hordered).imp fun h => Replacement.stop_le_start h.1 h.2
    have htext : ∀ r ∈ ordered, r.stop ≤ text.length := fun r hr => htext r (hperm.mem_iff.1 hr)
    rw [← hreverse, List.foldl_reverse, foldr_splice hrow (fun r _ => Nat.zero_le _) htext, List.take_zero,
      List.nil_append]

namespace Sample

/-- An insertion where one range ends and another starts, and a deletion that touches this one, from
the first in the text to the last. -/
def ordered : List Replacement :=
  [⟨0, 3, "abc", by decide⟩, ⟨3, 3, "+", by decide⟩, ⟨3, 5, "DE", by decide⟩, ⟨5, 6, "", by decide⟩]

/-- A fix that lists them in another order. -/
def edits : Fix :=
  ⟨[⟨3, 5, "DE", by decide⟩, ⟨0, 3, "abc", by decide⟩, ⟨5, 6, "", by decide⟩, ⟨3, 3, "+", by decide⟩]⟩

end Sample

/-- The hypotheses of `inApplicationOrder_safe` hold together. -/
theorem inApplicationOrder_safe_edits : Sample.edits.replacements.Pairwise Apart ∧
    (∀ r ∈ Sample.edits.replacements, r.stop ≤ "ABCdefg".toList.length) ∧
    Sample.ordered.Perm Sample.edits.replacements ∧
    Sample.ordered.Pairwise (fun r s => r.range ≤ s.range) ∧
    Sample.edits.inApplicationOrder.foldl (splice String.toList) "ABCdefg".toList = "abc+DEg".toList := by
  have hapart : Sample.edits.replacements.Pairwise Apart := by decide
  have htext : ∀ r ∈ Sample.edits.replacements, r.stop ≤ "ABCdefg".toList.length := by decide
  have hperm : Sample.ordered.Perm Sample.edits.replacements := by decide
  have hordered : Sample.ordered.Pairwise (fun r s => r.range ≤ s.range) := by decide
  exact ⟨hapart, htext, hperm, hordered,
    (inApplicationOrder_safe String.toList _ hapart).2.2.2.2 _ htext _ hperm hordered⟩

end Fix
end LintMerge
