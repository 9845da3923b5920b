/-
# Stable sorting

A sorted list is known when it is known which entries of each class it holds, and in
which order, where a class is what the order does not tell apart (`Stable.eq_of_classes`).
A stable sort changes neither (`Stable.filter_mergeSort_class`), so everything that can be
said of it follows from the classes: it may be done before or after some entries are
dropped (`Stable.filter_mergeSort`), and sorting parts of a list beforehand changes
nothing (`Stable.mergeSort_flatMap`). What lies between two entries of a kind need not be of this
kind; if it is, the kind stands in one piece (`Stable.filter_isInfix`).

Issues are compared by their places (`Issue.Place`), which are ordered as tuples are;
`Issue.notAfter_iff` says that the comparison in use is that order.
-/

import Mathlib.Data.Char
import Mathlib.Data.List.Lex
import Mathlib.Data.Prod.Lex
import LintMerge.Issue.Order

namespace LintMerge

namespace Stable

variable {α β : Type} {le : α → α → Bool}

/-- Whether an order does not tell two entries apart. -/
def alike (le : α → α → Bool) (a b : α) : Bool := le a b && le b a

section

variable (trans : ∀ a b c, le a b = true → le b c = true → le a c = true)
  (total : ∀ a b, (le a b || le b a) = true)

include total in
theorem le_refl (a : α) : le a a = true := by simpa using total a a

include total in
/-- An entry is in its own class. -/
theorem alike_self (a : α) : alike le a a = true := by simp [alike, le_refl total a]

include total in
/-- **A sorted list is known by its classes.** The first entries of two lists with the same
classes are each no later than the other, so they are in one class, of which both are the
first. -/
theorem eq_of_classes {xs ys : List α} (hxs : xs.Pairwise (le · ·)) (hys : ys.Pairwise (le · ·))
    (h : ∀ a, xs.filter (alike le a) = ys.filter (alike le a)) : xs = ys := by
  induction xs generalizing ys with
  | nil =>
    cases ys with
    | nil => rfl
    | cons y ys =>
      have hy := h y
      rw [List.filter_cons_of_pos (alike_self total y)] at hy
      cases hy
  | cons x xs ih =>
    have hx := h x
    rw [List.filter_cons_of_pos (alike_self total x)] at hx
    cases ys with
    | nil => cases hx
    | cons y ys =>
      have hy := h y
      rw [List.filter_cons_of_pos (alike_self total y)] at hy
      obtain ⟨hxy, hyx⟩ : le x y = true ∧ le y x = true := by
        have hxmem : x ∈ y :: ys :=
          List.mem_of_mem_filter (hx ▸ List.mem_cons_self : x ∈ (y :: ys).filter (alike le x))
        have hymem : y ∈ x :: xs :=
          List.mem_of_mem_filter (hy ▸ List.mem_cons_self : y ∈ (x :: xs).filter (alike le y))
        constructor
        · rcases List.mem_cons.1 hymem with rfl | hmem
          · exact le_refl total y
          · exact (List.pairwise_cons.1 hxs).1 y hmem
        · rcases List.mem_cons.1 hxmem with rfl | hmem
          · exact le_refl total x
          · exact (List.pairwise_cons.1 hys).1 x hmem
      rw [List.filter_cons_of_pos (by simp [alike, hxy, hyx])] at hx
      obtain ⟨rfl, -⟩ := List.cons.inj hx
      refine congrArg (x :: ·) (ih (List.pairwise_cons.1 hxs).2 (List.pairwise_cons.1 hys).2 fun a => ?_)
      have ha := h a
      rw [List.filter_cons, List.filter_cons] at ha
      split at ha
      · exact (List.cons.inj ha).2
      · exact ha

include trans total in
/-- **Sorting keeps classes.** The entries of a class are in order already, so they are a
sublist of the sorted list, and no other entry of it is in the class. -/
theorem filter_mergeSort_class (xs : List α) (a : α) :
    (xs.mergeSort le).filter (alike le a) = xs.filter (alike le a) := by
  have hsorted : (xs.filter (alike le a)).Pairwise (le · ·) := by
    refine List.Pairwise.imp_of_mem (R := fun _ _ => True) (fun {b c} hb hc _ => ?_)
      (List.pairwise_of_forall fun _ _ => trivial)
    have hb := (Bool.and_eq_true _ _ ▸ (List.mem_filter.1 hb).2 : le a b = true ∧ le b a = true)
    have hc := (Bool.and_eq_true _ _ ▸ (List.mem_filter.1 hc).2 : le a c = true ∧ le c a = true)
    exact trans b a c hb.2 hc.1
  have hsub : (xs.filter (alike le a)).Sublist ((xs.mergeSort le).filter (alike le a)) := by
    have hsub := (List.sublist_mergeSort trans total hsorted List.filter_sublist).filter (alike le a)
    simpa only [List.filter_filter, Bool.and_self] using hsub
  exact (hsub.eq_of_length (((List.mergeSort_perm xs le).filter _).length_eq).symm).symm

include trans total in
/-- Dropping entries and sorting may be done in either order. -/
theorem filter_mergeSort (xs : List α) (p : α → Bool) :
    (xs.mergeSort le).filter p = (xs.filter p).mergeSort le := by
  refine eq_of_classes total ((List.pairwise_mergeSort trans total xs).filter p)
    (List.pairwise_mergeSort trans total _) fun a => ?_
  rw [filter_mergeSort_class trans total, List.filter_filter, List.filter_filter]
  simp only [Bool.and_comm]
  rw [← List.filter_filter, ← List.filter_filter, filter_mergeSort_class trans total]

include trans total in
/-- Sorting parts of a list beforehand changes nothing. -/
theorem mergeSort_flatMap (bs : List β) (f : β → List α) :
    (bs.flatMap fun b => (f b).mergeSort le).mergeSort le = (bs.flatMap f).mergeSort le := by
  refine eq_of_classes total (List.pairwise_mergeSort trans total _)
    (List.pairwise_mergeSort trans total _) fun a => ?_
  rw [filter_mergeSort_class trans total, filter_mergeSort_class trans total, List.filter_flatMap,
    List.filter_flatMap]
  exact congrArg bs.flatMap (funext fun b => filter_mergeSort_class trans total (f b) a)

end

section

variable {p : α → Bool}
  (convex : ∀ a b c, le a b = true → le b c = true → p a = true → p c = true → p b = true)

include convex in
/-- The entries between two of a kind are of this kind, so in a sorted list that starts with one
they stand at its start. -/
theorem filter_cons_isPrefix {x : α} {xs : List α} (h : (x :: xs).Pairwise (le · ·)) (hx : p x = true) :
    (x :: xs).filter p <+: x :: xs := by
  induction xs generalizing x with
  | nil =>
    rw [List.filter_cons_of_pos hx]
    exact List.prefix_rfl
  | cons y ys ih =>
    rw [List.pairwise_cons] at h
    rw [List.filter_cons_of_pos hx, List.prefix_cons_inj]
    by_cases hy : p y = true
    · exact ih h.2 hy
    · have hnone : (y :: ys).filter p = [] := by
        refine List.filter_eq_nil_iff.2 fun z hz hpz => hy ?_
        rcases List.mem_cons.1 hz with rfl | hz
        · exact hpz
        · exact convex x y z (h.1 y List.mem_cons_self) ((List.pairwise_cons.1 h.2).1 z hz) hx hpz
      rw [hnone]
      exact List.nil_prefix

include convex in
/-- **A sorted list holds entries of a kind in one piece** when what is between two of them is of
this kind. -/
theorem filter_isInfix {xs : List α} (h : xs.Pairwise (le · ·)) : xs.filter p <:+: xs := by
  induction xs with
  | nil => exact List.nil_infix
  | cons x xs ih =>
    by_cases hx : p x = true
    · exact (filter_cons_isPrefix convex h hx).isInfix
    · rw [List.filter_cons_of_neg hx]
      exact List.infix_cons (ih (List.pairwise_cons.1 h).2)

end
end Stable

namespace Glyph

/-- No character has the code point of a half. -/
theorem code_injective : Function.Injective code := by
  have hvalid (c : Char) : c.toNat < 0xD800 ∨ 0xDFFF < c.toNat := c.valid.imp_right And.left
  rintro (c | n) (d | m) h
  · exact congrArg char (Char.toNat_inj.1 h)
  · have hc := hvalid c
    simp only [code] at h
    omega
  · have hd := hvalid d
    simp only [code] at h
    omega
  · exact congrArg half (Fin.ext (Nat.add_left_cancel h))

instance : LinearOrder Glyph := LinearOrder.lift' code code_injective

end Glyph

namespace Issue

/-- The place of an issue: the keys of its path, its line and its column. -/
abbrev Place := List Glyph ×ₗ List Glyph ×ₗ Nat ×ₗ Nat

/-- The place at which an issue is sorted. -/
def place (c : Collation) (i : Issue) : Place :=
  toLex (keyOf c i.folded, toLex (keyOf c i.spelling, toLex (i.span.line, i.span.column)))

/-- One component more of a comparison of tuples. -/
theorem thenCompare_iff {α β : Type} [LinearOrder α] [DecidableLT α] [LE β] {a a' : α} {b b' : β}
    {rest : Bool} (h : rest = true ↔ b ≤ b') :
    thenCompare a a' rest = true ↔ toLex (a, b) ≤ toLex (a', b') := by
  rw [Prod.Lex.toLex_le_toLex, thenCompare]
  rcases lt_trichotomy a a' with hlt | heq | hgt
  · simp [hlt]
  · simp [heq, h]
  · simp [hgt, not_lt_of_gt hgt, ne_of_gt hgt]

/-- **Issues are compared by their places.** -/
theorem notAfter_iff (c : Collation) (i j : Issue) : notAfter c i j = true ↔ i.place c ≤ j.place c := by
  have hcolumn : decide (i.span.column ≤ j.span.column) = true ↔ i.span.column ≤ j.span.column :=
    decide_eq_true_iff
  have hline : thenCompare i.span.line j.span.line (decide (i.span.column ≤ j.span.column)) = true ↔
      toLex (i.span.line, i.span.column) ≤ toLex (j.span.line, j.span.column) :=
    thenCompare_iff hcolumn
  have hpath : thenCompare (keyOf c i.spelling) (keyOf c j.spelling) (thenCompare i.span.line j.span.line
      (decide (i.span.column ≤ j.span.column))) = true ↔ _ := thenCompare_iff hline
  exact thenCompare_iff hpath

theorem notAfter_trans (c : Collation) (i j k : Issue) (hij : notAfter c i j = true)
    (hjk : notAfter c j k = true) : notAfter c i k = true := by
  rw [notAfter_iff] at *
  exact hij.trans hjk

theorem notAfter_total (c : Collation) (i j : Issue) : (notAfter c i j || notAfter c j i) = true := by
  rw [Bool.or_eq_true, notAfter_iff, notAfter_iff]
  exact le_total _ _

@[simp] theorem mem_sort {c : Collation} {issues : List Issue} {i : Issue} :
    i ∈ sort c issues ↔ i ∈ issues := (List.mergeSort_perm _ _).mem_iff

theorem pairwise_notAfter_sort (c : Collation) (issues : List Issue) :
    (sort c issues).Pairwise (notAfter c · ·) :=
  List.pairwise_mergeSort (notAfter_trans c) (notAfter_total c) issues

/-- Issues may be dropped before or after they are sorted. -/
theorem filter_sort (c : Collation) (issues : List Issue) (p : Issue → Bool) :
    (sort c issues).filter p = sort c (issues.filter p) :=
  Stable.filter_mergeSort (notAfter_trans c) (notAfter_total c) issues p

/-- The issues of several parts may be sorted part by part first. -/
theorem sort_flatMap {β : Type} (c : Collation) (bs : List β) (f : β → List Issue) :
    sort c (bs.flatMap fun b => sort c (f b)) = sort c (bs.flatMap f) :=
  Stable.mergeSort_flatMap (notAfter_trans c) (notAfter_total c) bs f

/-- Issues are sorted exactly when all of them have their keys. -/
theorem sorted_eq_ok_iff {c : Collation} {issues sortedIssues : List Issue} :
    sorted c issues = .ok sortedIssues ↔
      (∀ i ∈ issues, i.hasKeys c = true) ∧ sortedIssues = sort c issues := by
  rw [sorted]
  split
  · next i hi =>
    have hmem := List.mem_of_find?_eq_some hi
    have hkeys := List.find?_some hi
    constructor
    · intro h
      cases h
    · rintro ⟨hall, -⟩
      simp [hall i hmem] at hkeys
  · next hnone =>
    rw [List.find?_eq_none] at hnone
    constructor
    · intro h
      cases h
      exact ⟨fun i hi => by simpa using hnone i hi, rfl⟩
    · rintro ⟨-, rfl⟩
      rfl

end Issue
end LintMerge
