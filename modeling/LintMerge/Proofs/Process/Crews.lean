/-
# What a crew is seen to do

A crew is seen to take the steps of its jobs, in an order of which only this is known: each job
takes its own steps in their order. So what a crew is seen to do is a shuffle of what its jobs are
seen to do one by one (`Crew.course_cons`). Whatever is picked from a shuffle is a shuffle of what
is picked from its parts (`Shuffle.filterMap`), and against a runner with one answer for each call
all courses of a crew come to the same values and make the same calls, in some order
(`Crew.perm_of_course`).
-/

import LintMerge.Proofs.Process.Course

namespace LintMerge

/-- Two lists are shuffled to a third one, in which each of them keeps its order. -/
inductive Shuffle {α : Type} : List α → List α → List α → Prop where
  | nil : Shuffle [] [] []
  | left {a : α} {as bs cs : List α} (h : Shuffle as bs cs) : Shuffle (a :: as) bs (a :: cs)
  | right {b : α} {as bs cs : List α} (h : Shuffle as bs cs) : Shuffle as (b :: bs) (b :: cs)

namespace Shuffle

variable {α β : Type} {as bs cs : List α}

theorem nil_left (bs : List α) : Shuffle [] bs bs := by
  induction bs with
  | nil => exact .nil
  | cons b bs ih => exact .right ih

theorem nil_left_iff : Shuffle [] bs cs ↔ cs = bs := by
  constructor
  · intro h
    generalize hnil : ([] : List α) = as at h
    induction h with
    | nil => rfl
    | left => cases hnil
    | right _ ih => rw [ih hnil]
  · rintro rfl
    exact nil_left _

theorem symm (h : Shuffle as bs cs) : Shuffle bs as cs := by
  induction h with
  | nil => exact .nil
  | left _ ih => exact .right ih
  | right _ ih => exact .left ih

theorem nil_right_iff : Shuffle as [] cs ↔ cs = as :=
  ⟨fun h => nil_left_iff.1 h.symm, fun h => (nil_left_iff.2 h).symm⟩

/-- A shuffle has the entries of both lists. -/
theorem perm (h : Shuffle as bs cs) : cs.Perm (as ++ bs) := by
  induction h with
  | nil => exact .nil
  | left _ ih => exact ih.cons _
  | right _ ih => exact (ih.cons _).trans List.perm_middle.symm

/-- **What is picked from a shuffle** is a shuffle of what is picked from its parts. -/
theorem filterMap (f : α → Option β) (h : Shuffle as bs cs) :
    Shuffle (as.filterMap f) (bs.filterMap f) (cs.filterMap f) := by
  induction h with
  | nil => exact .nil
  | @left a as bs cs _ ih =>
    rw [List.filterMap_cons, List.filterMap_cons]
    cases f a with
    | none => exact ih
    | some b => exact .left ih
  | @right a as bs cs _ ih =>
    rw [List.filterMap_cons, List.filterMap_cons]
    cases f a with
    | none => exact ih
    | some b => exact .right ih

/-- What stands in front of one of the lists may stand in front of all. -/
theorem append_right (h : Shuffle as bs cs) (early : List α) :
    Shuffle as (early ++ bs) (early ++ cs) := by
  induction early with
  | nil => exact h
  | cons a early ih => exact .right ih

theorem filter (p : α → Bool) (h : Shuffle as bs cs) :
    Shuffle (as.filter p) (bs.filter p) (cs.filter p) := by
  simp only [← List.filterMap_eq_filter]
  exact h.filterMap _

end Shuffle

/-- Lists are shuffled to one, in which each of them keeps its order. -/
inductive Shuffles {α : Type} : List (List α) → List α → Prop where
  | nil : Shuffles [] []
  | cons {as bs cs : List α} {lists : List (List α)} (hrest : Shuffles lists bs)
      (h : Shuffle as bs cs) : Shuffles (as :: lists) cs

/-- A shuffle has the entries of all lists. -/
theorem Shuffles.perm {α : Type} {lists : List (List α)} {cs : List α} (h : Shuffles lists cs) :
    cs.Perm lists.flatten := by
  induction h with
  | nil => exact .nil
  | cons _ h ih => exact h.perm.trans (ih.append_left _)

/-- Entries that are shuffled in one by one may all stand in front. -/
theorem Shuffles.append_singletons {α : Type} {lists : List (List α)} {cs : List α}
    (h : Shuffles lists cs) (early : List α) :
    Shuffles (lists ++ early.map ([·])) (early ++ cs) := by
  induction h with
  | nil =>
    rw [List.nil_append, List.append_nil]
    induction early with
    | nil => exact .nil
    | cons a early ih => exact .cons ih (.left (.nil_left early))
  | cons _ h ih => exact .cons ih (h.append_right early)

namespace Job

variable {ε α β : Type} {r : Runner}

/-- All events that a job tells of, whatever it is answered, have a property. -/
def OnlyTells (P : ε → Prop) : Job ε α → Prop
  | done _ => True
  | call _ next => ∀ a, OnlyTells P (next a)
  | tell e rest => P e ∧ OnlyTells P rest

/-- A job and what goes on with its value tell of the events of both. -/
theorem OnlyTells.bind {P : ε → Prop} {j : Job ε α} {f : α → Job ε β} (hj : j.OnlyTells P)
    (hf : ∀ a, (f a).OnlyTells P) : (j.bind f).OnlyTells P := by
  induction j with
  | done a => exact hf a
  | call c next ih => exact fun a => ih a (hj a)
  | tell e rest ih => exact ⟨hj.1, ih hj.2⟩

/-- The events of a course are events of the job. -/
theorem OnlyTells.course {P : ε → Prop} {j : Job ε α} {ss : List (Step ε)} {a : α}
    (hj : j.OnlyTells P) (h : j.Course r ss a) : ∀ e ∈ events ss, P e := by
  induction h with
  | done => exact fun e he => absurd he List.not_mem_nil
  | step hs _ ih =>
    cases hs with
    | call => exact ih (hj _)
    | tell => exact List.forall_mem_cons.2 ⟨hj.1, ih hj.2⟩

/-- The same steps in another order make the same calls in another order. -/
theorem perm_calls {ss ss' : List (Step ε)} (h : ss.Perm ss') : (calls ss).Perm (calls ss') :=
  h.filterMap _

/-- What a job ensures holds of the value of each of its courses. -/
theorem Ensures.course {P : α → Prop} {j : Job ε α} {ss : List (Step ε)} {a : α} (hj : j.Ensures r P)
    (h : j.Course r ss a) : P a :=
  h.mayEnd.of_ensures hj

/-- **Against a runner with one answer for each call** a job has one course. -/
theorem course_exactly {answer : Call → Answer} {j : Job ε α} {ss : List (Step ε)} {a : α} :
    j.Course (.exactly answer) ss a ↔ ss = j.steps answer ∧ a = j.value answer := by
  induction j generalizing ss with
  | done b => exact course_done
  | call c next ih =>
    constructor
    · intro h
      cases h with
      | step hs hj =>
        cases hs with
        | call hanswer =>
          cases hanswer
          obtain ⟨rfl, rfl⟩ := (ih _).1 hj
          exact ⟨rfl, rfl⟩
    · rintro ⟨rfl, rfl⟩
      exact .step (.call rfl) ((ih (answer c)).2 ⟨rfl, rfl⟩)
  | tell e rest ih =>
    rw [course_tell]
    constructor
    · rintro ⟨ss', rfl, h⟩
      obtain ⟨rfl, rfl⟩ := ih.1 h
      exact ⟨rfl, rfl⟩
    · rintro ⟨rfl, rfl⟩
      exact ⟨_, rfl, ih.2 ⟨rfl, rfl⟩⟩

end Job

namespace Crew

variable {ε α : Type} {r : Runner}

/-- A course of a crew: the steps that it takes, and the values with which its jobs end. -/
inductive Course (r : Runner) : Crew ε α → List (Job.Step ε) → List α → Prop where
  | finished {as : List α} : Course r (finished as) [] as
  | step {js js' : Crew ε α} {s : Job.Step ε} {ss : List (Job.Step ε)} {as : List α}
      (h : Takes r js s js') (hjs : Course r js' ss as) : Course r js (s :: ss) as

theorem course_nil {ss : List (Job.Step ε)} {as : List α} :
    Course r ([] : Crew ε α) ss as ↔ ss = [] ∧ as = [] := by
  constructor
  · intro h
    generalize hjs : ([] : Crew ε α) = js at h
    cases h with
    | finished => exact ⟨rfl, List.map_eq_nil_iff.1 hjs.symm⟩
    | step hs =>
      subst hjs
      cases hs
  · rintro ⟨rfl, rfl⟩
    show Course r (finished []) [] []
    exact .finished

/-- **A course of a crew is a shuffle** of a course of its first job and one of the others. -/
theorem course_cons {j : Job ε α} {js : Crew ε α} {ss : List (Job.Step ε)} {bs : List α} :
    Course r (j :: js) ss bs ↔ ∃ ss₁ ss₂ a as,
      bs = a :: as ∧ Shuffle ss₁ ss₂ ss ∧ j.Course r ss₁ a ∧ Course r js ss₂ as := by
  constructor
  · intro h
    generalize hcrew : j :: js = crew at h
    induction h generalizing j js with
    | @finished bs =>
      cases bs with
      | nil => cases hcrew
      | cons a as =>
        cases hcrew
        exact ⟨[], [], a, as, rfl, .nil, .done, .finished⟩
    | step hs _ ih =>
      subst hcrew
      cases hs with
      | first hj =>
        obtain ⟨ss₁, ss₂, a, as, rfl, hshuffle, h₁, h₂⟩ := ih rfl
        exact ⟨_, ss₂, a, as, rfl, .left hshuffle, .step hj h₁, h₂⟩
      | later hjs =>
        obtain ⟨ss₁, ss₂, a, as, rfl, hshuffle, h₁, h₂⟩ := ih rfl
        exact ⟨ss₁, _, a, as, rfl, .right hshuffle, h₁, .step hjs h₂⟩
  · rintro ⟨ss₁, ss₂, a, as, rfl, hshuffle, h₁, h₂⟩
    induction hshuffle generalizing j js with
    | nil =>
      cases h₁
      cases h₂
      show Course r (finished (_ :: _)) [] _
      exact .finished
    | left _ ih =>
      cases h₁ with
      | step hs hj => exact .step (.first hs) (ih hj h₂)
    | right _ ih =>
      cases h₂ with
      | step hs hjs => exact .step (.later hs) (ih h₁ hjs)

/-- Each job of a crew may end with the value that it ends with in a course of the crew. -/
theorem mayEnd_of_course {js : Crew ε α} {ss : List (Job.Step ε)} {as : List α}
    (h : Course r js ss as) : List.Forall₂ (fun j a => j.MayEnd r a) js as := by
  induction js generalizing ss as with
  | nil =>
    obtain ⟨rfl, rfl⟩ := course_nil.1 h
    exact .nil
  | cons j js ih =>
    obtain ⟨ss₁, ss₂, a, as, rfl, -, h₁, h₂⟩ := course_cons.1 h
    exact .cons h₁.mayEnd (ih h₂)

/-- The events of a course of a crew are events of its jobs. -/
theorem events_of_course {P : ε → Prop} {js : Crew ε α} {ss : List (Job.Step ε)} {as : List α}
    (hjs : ∀ j ∈ js, j.OnlyTells P) (h : Course r js ss as) : ∀ e ∈ Job.events ss, P e := by
  induction js generalizing ss as with
  | nil =>
    obtain ⟨rfl, -⟩ := course_nil.1 h
    exact fun e he => absurd he List.not_mem_nil
  | cons j js ih =>
    obtain ⟨ss₁, ss₂, a, as, -, hshuffle, h₁, h₂⟩ := course_cons.1 h
    obtain ⟨hfirst, hrest⟩ := List.forall_mem_cons.1 hjs
    intro e he
    have hparts : e ∈ Job.events ss₁ ++ Job.events ss₂ := (hshuffle.filterMap _).perm.mem_iff.1 he
    exact (List.mem_append.1 hparts).elim (hfirst.course h₁ e) (ih hrest h₂ e)

/-- **Against a runner with one answer for each call** all courses of a crew come to the same values
and take the same steps, in some order. -/
theorem perm_of_course {answer : Call → Answer} {js : Crew ε α} {ss : List (Job.Step ε)} {as : List α}
    (h : Course (.exactly answer) js ss as) :
    as = js.map (·.value answer) ∧ ss.Perm (js.flatMap (·.steps answer)) := by
  induction js generalizing ss as with
  | nil =>
    obtain ⟨rfl, rfl⟩ := course_nil.1 h
    exact ⟨rfl, .nil⟩
  | cons j js ih =>
    obtain ⟨ss₁, ss₂, a, as, rfl, hshuffle, h₁, h₂⟩ := course_cons.1 h
    obtain ⟨rfl, rfl⟩ := Job.course_exactly.1 h₁
    obtain ⟨rfl, hperm⟩ := ih h₂
    exact ⟨rfl, hshuffle.perm.trans (hperm.append_left _)⟩

end Crew
end LintMerge
