/-
# Where the names of a pattern stand

A pattern matches a path by segments, and a segment that is a name is matched by some text between
slashes, wherever the wildcards in front of it have led (`exists_of_eats_steps`): the text stands at
the start or behind a slash, and what follows it is eaten by the segments after the name. A pattern
of which the last segment is a name matches up to where a name may end
(`Pattern.weight?_isSome_of_name`).
-/

import LintMerge.Proofs.Glob.Literal

namespace LintMerge
namespace Glob

/-- Steps eat one after the other. -/
theorem eats_append {steps more : List Step} {c : List Char} :
    Eats (steps ++ more) c ↔ ∃ a b, Eats steps a ∧ Eats more b ∧ c = a ++ b := by
  induction steps generalizing c with
  | nil =>
    constructor
    · intro h
      exact ⟨[], c, rfl, h, rfl⟩
    · rintro ⟨_, b, rfl, hb, rfl⟩
      exact hb
  | cons step steps ih =>
    constructor
    · rintro ⟨x, y, hx, hy, rfl⟩
      obtain ⟨a, b, ha, hb, rfl⟩ := ih.1 hy
      exact ⟨x ++ a, b, ⟨x, a, hx, ha, rfl⟩, hb, (List.append_assoc ..).symm⟩
    · rintro ⟨_, b, ⟨x, a, hx, ha, rfl⟩, hb, rfl⟩
      exact ⟨x, a ++ b, hx, ih.2 ⟨a, b, ha, hb, rfl⟩, List.append_assoc ..⟩

variable {before more after : List Segment} {ps : List Piece} {c : List Char}

/-- What comes first is eaten first. -/
theorem exists_stepsAfter_append (before : List Segment) (hmore : more ≠ []) :
    ∃ lead, stepsAfter (before ++ more) = lead ++ stepsAfter more := by
  induction before with
  | nil => exact ⟨[], rfl⟩
  | cons segment before ih =>
    obtain ⟨lead, ih⟩ := ih
    rw [List.cons_append]
    cases segment with
    | deep =>
      rw [stepsAfter, if_neg (by simp [hmore]), ih]
      exact ⟨.deepAfter :: lead, rfl⟩
    | any =>
      rw [stepsAfter, ih]
      exact ⟨.piece (.char '/') :: .name :: lead, rfl⟩
    | name qs =>
      rw [stepsAfter, ih]
      exact ⟨.piece (.char '/') :: qs.map .piece ++ lead, (List.append_assoc ..).symm⟩

/-- A slash stands before what is eaten after other segments, unless these are one `**`, which eats the
slash behind it. -/
theorem exists_steps_append (hbefore : before ≠ []) (hdeep : before ≠ [.deep]) (hmore : more ≠ []) :
    ∃ lead, steps (before ++ more) = lead ++ stepsAfter more := by
  have hlead (first : List Step) (before : List Segment) :
      ∃ lead, first ++ stepsAfter (before ++ more) = lead ++ stepsAfter more := by
    obtain ⟨lead, h⟩ := exists_stepsAfter_append before hmore
    exact ⟨first ++ lead, by rw [h, List.append_assoc]⟩
  match before with
  | .any :: before => exact hlead [.name] before
  | .name qs :: before => exact hlead (qs.map .piece) before
  | .deep :: .deep :: before => exact hlead [.deepBefore] (.deep :: before)
  | .deep :: .any :: before => exact hlead [.deepBefore, .name] before
  | .deep :: .name qs :: before => exact hlead (.deepBefore :: qs.map .piece) before

/-- A name behind `**` is eaten with the slash before it, or at the start without one. -/
theorem eats_stepsAfter_deep : Eats (stepsAfter (.deep :: .name ps :: after)) c ↔
    ∃ d, c = '/' :: d ∧ Eats (steps (.deep :: .name ps :: after)) d := by
  show (∃ a b, Step.deepAfter.Eats a ∧ (∃ x y, x = ['/'] ∧ Eats _ y ∧ b = x ++ y) ∧ c = a ++ b) ↔
    ∃ d, c = '/' :: d ∧ ∃ a b, Step.deepBefore.Eats a ∧ Eats _ b ∧ d = a ++ b
  constructor
  · rintro ⟨_, _, rfl | ⟨u, hne, hfeed, rfl⟩, ⟨_, y, rfl, hy, rfl⟩, rfl⟩
    · exact ⟨y, rfl, [], y, .inl rfl, hy, rfl⟩
    · exact ⟨u ++ '/' :: y, rfl, u ++ ['/'], y, .inr ⟨u, hne, hfeed, rfl⟩, hy, by simp⟩
  · rintro ⟨d, rfl, _, y, rfl | ⟨u, hne, hfeed, rfl⟩, hy, rfl⟩
    · exact ⟨[], '/' :: d, .inl rfl, ⟨['/'], d, rfl, hy, rfl⟩, rfl⟩
    · exact ⟨'/' :: u, '/' :: y, .inr ⟨u, hne, hfeed, rfl⟩, ⟨['/'], y, rfl, hy, rfl⟩, by simp⟩

/-- **What the segments up to a name eat**: the name stands at the start or behind a slash. -/
theorem exists_of_eats_steps (h : Eats (steps (before ++ .name ps :: after)) c) :
    ∃ a b d, c = a ++ (b ++ d) ∧ (a = [] ∨ a.getLast? = some '/') ∧ Eats (ps.map .piece) b ∧
      Eats (stepsAfter after) d := by
  by_cases hbefore : before = []
  · subst hbefore
    obtain ⟨b, d, hb, hd, rfl⟩ := eats_append.1 h
    exact ⟨[], b, d, rfl, .inl rfl, hb, hd⟩
  by_cases hdeep : before = [.deep]
  · subst hdeep
    obtain ⟨a, y, ha, hy, rfl⟩ := h
    obtain ⟨b, d, hb, hd, rfl⟩ := eats_append.1 hy
    refine ⟨a, b, d, rfl, ha.imp_right ?_, hb, hd⟩
    rintro ⟨u, -, -, rfl⟩
    exact List.getLast?_concat
  obtain ⟨lead, hsteps⟩ := exists_steps_append hbefore hdeep (List.cons_ne_nil (.name ps) after)
  rw [hsteps] at h
  obtain ⟨x, _, -, ⟨_, y, rfl, hy, rfl⟩, rfl⟩ := eats_append.1 h
  obtain ⟨b, d, hb, hd, rfl⟩ := eats_append.1 hy
  exact ⟨x ++ ['/'], b, d, by simp, .inr List.getLast?_concat, hb, hd⟩

/-- What may be left of a path after a name: nothing, what comes with a slash, or a last line feed. -/
def Stops (r : List Char) : Prop := r.head? = some '/' ∨ r = [] ∨ r = ['\n']

namespace Pattern

variable {p : Pattern} {path : List Char}

/-- **A pattern of which the last segment is a name** matches what its steps eat, up to where a name may
end. -/
theorem weight?_isSome_of_name (hp : p.segments.getLast? = some (.name ps)) :
    (p.weight? path).isSome = true ↔ ∃ c r, Eats (steps p.segments) c ∧ path = c ++ r ∧ Stops r := by
  have hname : p.ending = .name := by
    rw [ending, hp, if_neg]
    intro h
    cases h
  have hweigh : p.weight? path = weigh? p.ending (steps p.segments) path := by
    unfold weight?
    split
    · next h _ => rw [h] at hp; cases hp
    · next h _ => rw [h] at hp; cases hp
    · next h => rw [h] at hp; cases hp
    · next h => rw [h] at hp; cases hp
    · rfl
  simp only [hweigh, weigh?_isSome, hname, Ending.weight?_name_isSome, Stops]

end Pattern
end Glob
end LintMerge
