/-
# Positions in a text

A position is a line and a column, both counted from 1: the line is one more than
the line feeds before it, the column one more than the characters since the last
of them.

The positions at several offsets are found in one walk over the text, in which the
offsets are met in ascending order; the walk ends with the last of them
(`offsets_to_positions`).
-/

namespace LintMerge

/-- A line and a column, counted from 1. -/
structure Position where
  line : Nat
  column : Nat
  deriving DecidableEq, Repr, Inhabited

namespace Position

/-- The start of a text. -/
def start : Position := ⟨1, 1⟩

/-- The position after a character. -/
def next (p : Position) (c : Char) : Position :=
  if c = '\n' then ⟨p.line + 1, 1⟩ else ⟨p.line, p.column + 1⟩

/-- The position after some characters. -/
def after (p : Position) (s : List Char) : Position := s.foldl next p

@[simp] theorem after_nil (p : Position) : p.after [] = p := rfl

@[simp] theorem after_cons (p : Position) (c : Char) (s : List Char) :
    p.after (c :: s) = (p.next c).after s := rfl

theorem after_append (p : Position) (s t : List Char) :
    p.after (s ++ t) = (p.after s).after t := by
  simp [after]

/-- The position of the character at an offset, the end of the text past it. -/
def ofOffset (s : List Char) (offset : Nat) : Position := start.after (s.take offset)

/-- The places at which a walk has to stop for some offsets, in ascending order and each once. An
offset before the text stands for its start. -/
def targets (offsets : List Int) : List Nat := (offsets.map Int.toNat).eraseDups.mergeSort

/-- What a walk finds at its targets, from a cursor and its position on. A target gets the position
at which the cursor reaches it; those that are left behind the text get the last one. -/
def walk (cursor : Nat) (p : Position) (targets : List Nat) : List Char → List (Nat × Position)
  | [] => targets.map fun t => (t, p)
  | c :: s =>
    let reached := (targets.takeWhile (· ≤ cursor)).map fun t => (t, p)
    match targets.dropWhile (· ≤ cursor) with
    | [] => reached
    | t :: later => reached ++ walk (cursor + 1) (p.next c) (t :: later) s

/-- The position at each of some offsets, as one walk finds it. -/
def located (s : List Char) (offsets : List Int) : Int → Option Position :=
  let found := walk 0 start (targets offsets) s
  fun offset => found.lookup offset.toNat

theorem mem_targets {offsets : List Int} {o : Int} (ho : o ∈ offsets) : o.toNat ∈ targets offsets := by
  rw [targets, List.mem_mergeSort, List.mem_eraseDups]
  exact List.mem_map_of_mem ho

theorem pairwise_targets (offsets : List Int) : (targets offsets).Pairwise (· ≤ ·) := by
  have hsorted : (targets offsets).Pairwise fun t u => decide (t ≤ u) = true :=
    List.pairwise_mergeSort (fun a b c hab hbc => by rw [decide_eq_true_eq] at *; omega)
      (fun a b => by rw [Bool.or_eq_true, decide_eq_true_eq, decide_eq_true_eq]; omega) _
  exact hsorted.imp of_decide_eq_true

/-- In ascending order the targets up to a cursor come first. -/
theorem mem_takeWhile_iff {ts : List Nat} (hsorted : ts.Pairwise (· ≤ ·)) {cursor t : Nat} :
    t ∈ ts.takeWhile (· ≤ cursor) ↔ t ∈ ts ∧ t ≤ cursor := by
  induction hsorted with
  | nil => simp
  | @cons u ts hu _ ih =>
    by_cases hle : u ≤ cursor
    · rw [List.takeWhile_cons_of_pos (by simpa using hle), List.mem_cons, List.mem_cons, ih]
      constructor
      · rintro (rfl | ⟨ht, htc⟩)
        · exact ⟨.inl rfl, hle⟩
        · exact ⟨.inr ht, htc⟩
      · rintro ⟨rfl | ht, htc⟩
        · exact .inl rfl
        · exact .inr ⟨ht, htc⟩
    · rw [List.takeWhile_cons_of_neg (by simpa using hle)]
      refine iff_of_false List.not_mem_nil ?_
      rintro ⟨ht, htc⟩
      rcases List.mem_cons.1 ht with rfl | ht
      · exact hle htc
      · exact hle (Nat.le_trans (hu t ht) htc)

/-- Targets that are reached together have one position. -/
theorem lookup_reached (p : Position) (ts : List Nat) (t : Nat) :
    (ts.map fun u => (u, p)).lookup t = if t ∈ ts then some p else none := by
  induction ts with
  | nil => rfl
  | cons u ts ih =>
    rw [List.map_cons, List.lookup_cons, ih]
    by_cases htu : t = u
    · rw [htu, beq_self_eq_true, if_pos List.mem_cons_self]
    · simp only [beq_false_of_ne htu, List.mem_cons, htu, false_or]

/-- **What a walk finds.** A target gets the position behind the characters up to it. The cursor
has reached a target or it goes on towards it, and in ascending order none is passed by. -/
theorem lookup_walk {s : List Char} {cursor t : Nat} {p : Position} {ts : List Nat}
    (hsorted : ts.Pairwise (· ≤ ·)) (ht : t ∈ ts) :
    (walk cursor p ts s).lookup t = some (p.after (s.take (t - cursor))) := by
  induction s generalizing cursor p ts with
  | nil => rw [walk, lookup_reached, if_pos ht, List.take_nil, after_nil]
  | cons c s ih =>
    have hsplit := List.takeWhile_append_dropWhile (p := fun u => decide (u ≤ cursor)) (l := ts)
    have hreached := lookup_reached p (ts.takeWhile (· ≤ cursor)) t
    rcases Nat.lt_or_ge cursor t with hlt | hle
    · -- the target is ahead: it is none of those that are reached, and the walk goes on
      have hnot : t ∉ ts.takeWhile (· ≤ cursor) := fun h =>
        Nat.not_le_of_lt hlt ((mem_takeWhile_iff hsorted).1 h).2
      have hlater : t ∈ ts.dropWhile (· ≤ cursor) := by
        rw [← hsplit, List.mem_append] at ht
        exact ht.resolve_left hnot
      have hgo : t - cursor = t - (cursor + 1) + 1 := by omega
      rw [if_neg hnot] at hreached
      rw [walk]
      split
      · next hnil => exact absurd (hnil ▸ hlater) List.not_mem_nil
      · next u later hcons =>
        have hrest := hsorted.sublist (List.dropWhile_sublist fun u => decide (u ≤ cursor))
        rw [hcons] at hlater hrest
        rw [List.lookup_append, hreached, Option.none_or, ih hrest hlater, hgo, List.take_succ_cons,
          after_cons]
    · have hmem : t ∈ ts.takeWhile (· ≤ cursor) := (mem_takeWhile_iff hsorted).2 ⟨ht, hle⟩
      have hnone : t - cursor = 0 := by omega
      rw [if_pos hmem] at hreached
      rw [hnone, List.take_zero, after_nil, walk]
      split
      · exact hreached
      · rw [List.lookup_append, hreached, Option.some_or]

/-- A walk finds each of its offsets. -/
theorem located_eq {s : List Char} {offsets : List Int} {o : Int} (ho : o ∈ offsets) :
    located s offsets o = some (ofOffset s o.toNat) :=
  lookup_walk (pairwise_targets offsets) (mem_targets ho)

theorem isSome_located {s : List Char} {offsets : List Int} {o : Int} (ho : o ∈ offsets) :
    (located s offsets o).isSome := by
  rw [located_eq ho, Option.isSome_some]

/-- The positions at some offsets, in their order. -/
def ofOffsets (s : List Char) (offsets : List Int) : List Position :=
  offsets.attach.map fun o => (located s offsets o.1).get (isSome_located o.2)

/-- The positions at the two ends of a span. -/
def ofSpan (s : List Char) (first last : Int) : Position × Position :=
  let found := located s [first, last]
  ((found first).get (isSome_located (by simp)), (found last).get (isSome_located (by simp)))

theorem ofOffsets_eq (s : List Char) (offsets : List Int) :
    ofOffsets s offsets = offsets.map fun o => ofOffset s o.toNat := by
  rw [ofOffsets]
  conv => rhs; rw [← List.attach_map_subtype_val offsets, List.map_map]
  refine List.map_congr_left fun o _ => ?_
  simp only [located_eq o.2, Option.get_some, Function.comp_apply]

theorem ofOffsets_pair (s : List Char) (first last : Int) :
    ofOffsets s [first, last] = [(ofSpan s first last).1, (ofSpan s first last).2] := rfl

theorem ofSpan_eq (s : List Char) (first last : Int) :
    ofSpan s first last = (ofOffset s first.toNat, ofOffset s last.toNat) := by
  have h := ofOffsets_eq s [first, last]
  rw [ofOffsets_pair] at h
  simpa [Prod.ext_iff] using h

end Position
end LintMerge
