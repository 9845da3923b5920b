/-
# Sorting by places

In the order of code points an issue is sorted by the path with its case folded, the path as it is
spelled, the line and the column (`Issue.place_codePoints`). Two issues that this order does not
tell apart have one path, line and column (`Issue.place_eq_place_iff`): folding loses case, but the
exact spelling follows it. So the issues at one place are a class of the sort, and a sorted list is
known when it is known which issues stand at each place, and in which order
(`Issue.sorted_canonical`).

The issues of one file are no class, for they differ in their places; but no issue of another file
comes between two of them (`Issue.path_eq_of_between`).
-/

import LintMerge.Proofs.Issue.Sorting

namespace LintMerge
namespace Issue

theorem place_codePoints (i : Issue) : i.place .codePoints =
    toLex (i.folded, toLex (i.spelling, toLex (i.span.line, i.span.column))) := rfl

/-- Whether an issue stands at a line and a column of a file. -/
def At (path : List Glyph) (line column : Nat) (i : Issue) : Prop :=
  i.spelling = path ∧ i.span.line = line ∧ i.span.column = column

instance (path : List Glyph) (line column : Nat) : DecidablePred (At path line column) := fun i =>
  inferInstanceAs (Decidable (i.spelling = path ∧ i.span.line = line ∧ i.span.column = column))

/-- **Places tell issues apart** by path, line and column, and by nothing else. -/
theorem place_eq_place_iff {i j : Issue} :
    i.place .codePoints = j.place .codePoints ↔ j.At i.spelling i.span.line i.span.column := by
  rw [place_codePoints, place_codePoints, At]
  simp only [EmbeddingLike.apply_eq_iff_eq, Prod.mk.injEq]
  constructor
  · rintro ⟨-, hpath, hline, hcolumn⟩
    exact ⟨hpath.symm, hline.symm, hcolumn.symm⟩
  · rintro ⟨hpath, hline, hcolumn⟩
    exact ⟨by rw [folded, folded, hpath], hpath.symm, hline.symm, hcolumn.symm⟩

/-- The class of an issue is what stands at its place. -/
theorem alike_iff {i j : Issue} :
    Stable.alike (notAfter .codePoints) i j = true ↔ j.At i.spelling i.span.line i.span.column := by
  rw [Stable.alike, Bool.and_eq_true, notAfter_iff, notAfter_iff, ← le_antisymm_iff, place_eq_place_iff]

/-- What comes between two tuples with one first part has this first part. -/
theorem eq_of_lex_between {α β : Type} [LinearOrder α] [LE β] {a b : α} {x y z : β}
    (h : toLex (a, x) ≤ toLex (b, y)) (h' : toLex (b, y) ≤ toLex (a, z)) : b = a ∧ x ≤ y ∧ y ≤ z := by
  rw [Prod.Lex.toLex_le_toLex] at h h'
  rcases h with h | ⟨rfl, hxy⟩
  · rcases h' with h' | ⟨heq, -⟩
    · exact absurd h' h.asymm
    · exact absurd heq h.ne'
  · rcases h' with h' | ⟨-, hyz⟩
    · exact absurd h' (lt_irrefl _)
    · exact ⟨rfl, hxy, hyz⟩

/-- No issue of another file comes between two of one file. -/
theorem path_eq_of_between {i j k : Issue} (hij : i.place .codePoints ≤ j.place .codePoints)
    (hjk : j.place .codePoints ≤ k.place .codePoints) (hpath : i.spelling = k.spelling) :
    j.spelling = i.spelling := by
  rw [place_codePoints, place_codePoints] at hij hjk
  have hfolded : k.folded = i.folded := by rw [folded, folded, hpath]
  rw [hfolded, ← hpath] at hjk
  obtain ⟨-, hij, hjk⟩ := eq_of_lex_between hij hjk
  exact (eq_of_lex_between hij hjk).1

variable {issues : List Issue}

theorem pairwise_sort (c : Collation) (issues : List Issue) :
    (sort c issues).Pairwise fun i j => i.place c ≤ j.place c :=
  (pairwise_notAfter_sort c issues).imp (notAfter_iff c _ _).1

/-- Issues in order are sorted already. -/
theorem sort_of_pairwise {c : Collation} (h : issues.Pairwise fun i j => i.place c ≤ j.place c) :
    sort c issues = issues :=
  List.mergeSort_of_pairwise (h.imp (notAfter_iff c _ _).2)

/-- **The issues at one place keep their order.** -/
theorem filter_at_sort (issues : List Issue) (path : List Glyph) (line column : Nat) :
    (sort .codePoints issues).filter (·.At path line column) = issues.filter (·.At path line column) := by
  rw [filter_sort]
  refine sort_of_pairwise (List.pairwise_of_forall_mem_list fun i hi j hj => le_of_eq ?_)
  obtain ⟨hpath, hline, hcolumn⟩ := of_decide_eq_true (List.mem_filter.1 hi).2
  rw [place_eq_place_iff, hpath, hline, hcolumn]
  exact of_decide_eq_true (List.mem_filter.1 hj).2

/-- **A sorted list is known by the issues at each place.** -/
theorem sort_eq_sort_iff (issues other : List Issue) :
    sort .codePoints other = sort .codePoints issues ↔
      ∀ path line column, other.filter (·.At path line column) = issues.filter (·.At path line column) := by
  constructor
  · intro h path line column
    rw [← filter_at_sort other, ← filter_at_sort issues, h]
  · intro h
    refine Stable.eq_of_classes (notAfter_total .codePoints) (pairwise_notAfter_sort _ other)
      (pairwise_notAfter_sort _ issues) fun i => ?_
    have hclass : Stable.alike (notAfter .codePoints) i = fun j => j.At i.spelling i.span.line i.span.column :=
      funext fun j => by rw [Bool.eq_iff_iff, alike_iff, decide_eq_true_iff]
    rw [hclass]
    exact ((filter_at_sort other _ _ _).trans (h _ _ _)).trans (filter_at_sort issues _ _ _).symm

/-- The issues of a file stand in one piece. -/
theorem filter_path_isInfix (issues : List Issue) (path : List Glyph) :
    (sort .codePoints issues).filter (·.spelling = path) <:+: sort .codePoints issues := by
  refine Stable.filter_isInfix (fun i j k hij hjk hi hk => ?_) (pairwise_notAfter_sort _ issues)
  rw [notAfter_iff] at hij hjk
  rw [decide_eq_true_iff] at hi hk ⊢
  exact (path_eq_of_between hij hjk (hi.trans hk.symm)).trans hi

end Issue
end LintMerge
