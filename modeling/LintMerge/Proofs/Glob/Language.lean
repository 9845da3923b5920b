/-
# The language of a pattern

Matching tries, for each step in turn, all that the step may leave of a path, the least
first. Which texts a step takes away does not depend on what it leaves (`Step.Eats`), so
whether a pattern matches can be told without the search: some text that its steps eat
one after the other stands at the start of the path, and the ending of the pattern
accepts what is left (`weigh?_isSome`). Only the weight of a match depends on the order
of the search.

Without patterns that include again what others exclude, a list of patterns matches when
one of them does, whatever the weights (`Spec.isMatch_of_positive`).
-/

import Mathlib.Data.List.TakeWhile
import LintMerge.Glob.Match

namespace LintMerge
namespace Glob

/-- The texts that a step may take away from the start of a path. -/
def Step.Eats : Step → List Char → Prop
  | piece (.char a), c => c = [a]
  | piece .one, c => ∃ a, a ≠ '/' ∧ c = [a]
  | piece .many, c => '/' ∉ c
  | piece (.oneOf negated ranges), c => ∃ a, inRanges ranges a ≠ negated ∧ c = [a]
  | name, c => c ≠ [] ∧ '/' ∉ c
  | deepBefore, c => c = [] ∨ ∃ u, u ≠ [] ∧ '\n' ∉ u ∧ c = u ++ ['/']
  | deepAfter, c => c = [] ∨ ∃ u, u ≠ [] ∧ '\n' ∉ u ∧ c = '/' :: u

/-- The texts that steps may take away one after the other. -/
def Eats : List Step → List Char → Prop
  | [], c => c = []
  | step :: rest, c => ∃ a b, step.Eats a ∧ Eats rest b ∧ c = a ++ b

/-- What is left after characters of a kind: any number of them may go, but for the least. -/
theorem mem_longestFirst {least : Nat} {p : Char → Bool} {s r : List Char} :
    r ∈ longestFirst least (s.takeWhile p) s ↔
      ∃ c, least ≤ c.length ∧ (∀ a ∈ c, p a = true) ∧ s = c ++ r := by
  simp only [longestFirst, List.mem_map, List.mem_filter, List.mem_reverse, List.mem_range,
    decide_eq_true_eq]
  constructor
  · rintro ⟨k, ⟨hk, hleast⟩, rfl⟩
    have hlen : (s.takeWhile p).length ≤ s.length := (List.takeWhile_sublist p).length_le
    refine ⟨s.take k, by rw [List.length_take]; omega, fun a ha => ?_, (List.take_append_drop k s).symm⟩
    have hstart : s.take k = (s.takeWhile p).take k := by
      have htake := @List.take_append_of_le_length _ _ (s.dropWhile p) _ (Nat.le_of_lt_succ hk)
      rwa [List.takeWhile_append_dropWhile] at htake
    rw [hstart] at ha
    exact List.mem_takeWhile_imp (List.mem_of_mem_take ha)
  · rintro ⟨c, hleast, hall, rfl⟩
    refine ⟨c.length, ⟨?_, hleast⟩, List.drop_left⟩
    rw [List.takeWhile_append_of_pos hall, List.length_append]
    omega

/-- What is left after one character of a kind. -/
theorem mem_tail_of_head {q : Char → Bool} {s r : List Char} :
    r ∈ (if s.head?.any q then [s.tail] else []) ↔ ∃ c, (∃ a, q a = true ∧ c = [a]) ∧ s = c ++ r := by
  constructor
  · intro h
    cases s with
    | nil => exact absurd h List.not_mem_nil
    | cons a s =>
      rw [List.mem_ite_nil_right, List.mem_singleton] at h
      exact ⟨[a], ⟨a, h.1, rfl⟩, by rw [h.2]; rfl⟩
  · rintro ⟨_, ⟨a, ha, rfl⟩, rfl⟩
    rw [List.mem_ite_nil_right, List.mem_singleton]
    exact ⟨ha, rfl⟩

theorem all_ne_iff {x : Char} {c : List Char} : (∀ a ∈ c, decide (a ≠ x) = true) ↔ x ∉ c := by
  simp only [decide_eq_true_eq]
  exact ⟨fun h hx => h x hx rfl, fun h a ha hax => h (hax ▸ ha)⟩

/-- **What a step leaves** is what remains when a text that it eats is taken away. -/
theorem Step.mem_rests {step : Step} {s r : List Char} :
    r ∈ step.rests s ↔ ∃ c, step.Eats c ∧ s = c ++ r := by
  cases step with
  | piece p =>
    cases p with
    | char a =>
      have hhead : (s.head? = some a) ↔ (s.head?.any fun x => decide (x = a)) = true := by
        cases s <;> simp
      simp only [rests, hhead]
      rw [mem_tail_of_head]
      simp only [Eats, decide_eq_true_eq, exists_eq_left]
    | one =>
      rw [rests, mem_tail_of_head]
      simp only [Eats, decide_eq_true_eq]
    | many =>
      rw [rests, mem_longestFirst]
      simp only [Eats, all_ne_iff, Nat.zero_le, true_and]
    | oneOf negated ranges =>
      rw [rests, mem_tail_of_head]
      simp only [Eats, bne_iff_ne]
  | name =>
    rw [rests, mem_longestFirst]
    simp only [Eats, all_ne_iff, Nat.one_le_iff_ne_zero, Ne, List.length_eq_zero_iff, and_assoc]
  | deepBefore =>
    simp only [rests, List.mem_append, List.mem_map, List.mem_filter, mem_longestFirst, List.mem_singleton, Eats]
    constructor
    · rintro (⟨r', ⟨⟨u, hne, hfeed, rfl⟩, hslash⟩, rfl⟩ | rfl)
      · obtain ⟨r'', rfl⟩ : ∃ r'', r' = '/' :: r'' := List.head?_eq_some_iff.1 (of_decide_eq_true hslash)
        exact ⟨u ++ ['/'], .inr ⟨u, List.length_pos_iff.1 hne, all_ne_iff.1 hfeed, rfl⟩, by simp⟩
      · exact ⟨[], .inl rfl, rfl⟩
    · rintro ⟨_, rfl | ⟨u, hne, hfeed, rfl⟩, rfl⟩
      · exact .inr rfl
      · exact .inl ⟨'/' :: r, ⟨⟨u, List.length_pos_iff.2 hne, all_ne_iff.2 hfeed, by simp⟩, rfl⟩, rfl⟩
  | deepAfter =>
    simp only [rests, List.mem_append, List.mem_singleton, Eats]
    constructor
    · rintro (h | rfl)
      · split at h
        · rw [mem_longestFirst] at h
          obtain ⟨u, hne, hfeed, rfl⟩ := h
          exact ⟨'/' :: u, .inr ⟨u, List.length_pos_iff.1 hne, all_ne_iff.1 hfeed, rfl⟩, rfl⟩
        · exact absurd h List.not_mem_nil
      · exact ⟨[], .inl rfl, rfl⟩
    · rintro ⟨_, rfl | ⟨u, hne, hfeed, rfl⟩, rfl⟩
      · exact .inr rfl
      · exact .inl (mem_longestFirst.2 ⟨u, List.length_pos_iff.2 hne, all_ne_iff.2 hfeed, rfl⟩)

/-- **Matching is a question of what is eaten.** Steps and an ending match a path exactly when
the steps eat some text at its start and the ending accepts what is left. -/
theorem weigh?_isSome {e : Ending} {steps : List Step} {s : List Char} :
    (weigh? e steps s).isSome = true ↔ ∃ c r, Eats steps c ∧ s = c ++ r ∧ (e.weight? r).isSome = true := by
  induction steps generalizing s with
  | nil =>
    rw [weigh?]
    constructor
    · intro h
      exact ⟨[], s, rfl, rfl, h⟩
    · rintro ⟨_, r, rfl, rfl, h⟩
      exact h
  | cons step rest ih =>
    rw [weigh?, List.findSome?_isSome_iff]
    constructor
    · rintro ⟨s', hs', h⟩
      obtain ⟨a, ha, rfl⟩ := Step.mem_rests.1 hs'
      obtain ⟨b, r, hb, rfl, hr⟩ := ih.1 h
      exact ⟨a ++ b, r, ⟨a, b, ha, hb, rfl⟩, (List.append_assoc a b r).symm, hr⟩
    · rintro ⟨_, r, ⟨a, b, ha, hb, rfl⟩, rfl, hr⟩
      exact ⟨b ++ r, Step.mem_rests.2 ⟨a, ha, List.append_assoc a b r⟩, ih.2 ⟨b, r, hb, rfl, hr⟩⟩

/-- An ending for names accepts the end of a path, before which a line feed may be left, and a
slash. -/
theorem Ending.weight?_name_isSome {r : List Char} :
    (Ending.name.weight? r).isSome = true ↔ r.head? = some '/' ∨ r = [] ∨ r = ['\n'] := by
  rw [weight?]
  split
  · simp [*]
  · split <;> simp_all [atEnd]

/-- An ending for all that lies below accepts a slash. -/
theorem Ending.weight?_below_isSome {w : Weight} {r : List Char} :
    ((Ending.below w).weight? r).isSome = true ↔ r.head? = some '/' := by
  rw [weight?]
  split <;> simp [*]

namespace Spec

/-- What is decided after patterns that include: that the path is matched, once one of them has
matched. -/
theorem foldl_judge_of_positive {ps : List Pattern} (hps : ∀ p ∈ ps, p.negated = false)
    (s : List Char) {found : Option (Weight × Bool)} (hfound : ∀ f ∈ found, f.2 = true) :
    (∀ f ∈ ps.foldl (judge s) found, f.2 = true) ∧
      (ps.foldl (judge s) found).isSome = (found.isSome || ps.any fun p => (p.weight? s).isSome) := by
  induction ps generalizing found with
  | nil =>
    rw [List.foldl_nil, List.any_nil, Bool.or_false]
    exact ⟨hfound, rfl⟩
  | cons p ps ih =>
    have hp : p.negated = false := hps p List.mem_cons_self
    have hjudge : (∀ f ∈ judge s found p, f.2 = true) ∧
        (judge s found p).isSome = (found.isSome || (p.weight? s).isSome) := by
      rw [judge]
      cases p.weight? s with
      | none => exact ⟨hfound, (Bool.or_false _).symm⟩
      | some w =>
        dsimp only
        split
        · simp [hp]
        · next hlight =>
          -- only a match that was found before can outweigh this one
          cases found with
          | none => cases w <;> exact absurd rfl hlight
          | some f => exact ⟨hfound, rfl⟩
    obtain ⟨hall, hsome⟩ := ih (fun q hq => hps q (List.mem_cons_of_mem _ hq)) hjudge.1
    rw [List.foldl_cons, List.any_cons, ← Bool.or_assoc, ← hjudge.2]
    exact ⟨hall, hsome⟩

/-- **Without patterns that include again, one match is enough.** -/
theorem isMatch_of_positive {spec : Spec} (hspec : ∀ p ∈ spec.patterns, p.negated = false)
    (path : String) :
    spec.isMatch path = spec.patterns.any fun p => (p.weight? (trimPath path.toList)).isSome := by
  have hnone : ∀ f ∈ (none : Option (Weight × Bool)), f.2 = true := fun f hf =>
    absurd hf (Option.not_mem_none f)
  obtain ⟨hall, hsome⟩ := foldl_judge_of_positive hspec (trimPath path.toList) hnone
  rw [Option.isSome_none, Bool.false_or] at hsome
  rw [← hsome, isMatch, verdict]
  cases hv : spec.patterns.foldl (judge (trimPath path.toList)) none with
  | none => rfl
  | some f =>
    rw [hv] at hall
    exact hall f rfl

end Spec
end Glob
end LintMerge
