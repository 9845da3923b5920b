/-
# The courses of jobs

`Job.run` carries a job out against one function that answers every call. Programs are
not like that: what they answer is not known before, and the jobs of a crew are carried
out side by side, a step of one and then a step of another in any order. Here a runner
is a relation between calls and their answers, a job takes one step after the other
(`Job.Takes`), and a step of a crew is a step of one of its jobs (`Crew.Takes`).

What all courses of a job (`Job.Course`) come to is told by `Job.Ensures`, which follows
the job: it composes along `Job.bind`, every step keeps it, and against a runner that has one
answer for each call it says no more than the value of the job (`ensures_exactly`). Which
calls a job makes is told in the same way (`Job.OnlyCalls`). No job and no crew goes on for
ever (`Job.acc_takes`, `Crew.acc_takes`), and none is stuck before it is done
(`Job.progress`, `Crew.progress`).
-/

import Mathlib.Data.List.Forall2
import LintMerge.Process.Job

namespace LintMerge

/-- What may be answered to each call. -/
abbrev Runner := Call → Answer → Prop

namespace Runner

variable {r : Runner}

/-- The runner of which the answer is a function of the call. -/
def exactly (answer : Call → Answer) : Runner := fun c a => a = answer c

/-- Every call is answered in some way. -/
def Total (r : Runner) : Prop := ∀ c, ∃ a, r c a

theorem total_exactly (answer : Call → Answer) : (exactly answer).Total := fun c => ⟨answer c, rfl⟩

/-- Every call is answered, and by a program that ran. -/
def Returns (r : Runner) : Prop := ∀ c, (∃ a, r c a) ∧ ∀ a, r c a → ∃ o, a = .ok o

theorem Returns.total (hr : r.Returns) : r.Total := fun c => (hr c).1

/-- The runner of which the outcome is a function of the call. -/
theorem returns_exactly (outcome : Call → Outcome) : (exactly fun c => .ok (outcome c)).Returns :=
  fun c => ⟨⟨_, rfl⟩, fun _ ha => ⟨outcome c, ha⟩⟩

end Runner

namespace Job

variable {ε α β : Type} {r : Runner}

/-- A job takes a step: its call is answered, or it tells of its event. -/
inductive Takes (r : Runner) : Job ε α → Step ε → Job ε α → Prop where
  | call {c : Call} {next : Answer → Job ε α} {a : Answer} (h : r c a) :
      Takes r (.call c next) (.called c) (next a)
  | tell {e : ε} {rest : Job ε α} : Takes r (.tell e rest) (.told e) rest

/-- On every course of a job its value has a property. -/
def Ensures (r : Runner) (P : α → Prop) : Job ε α → Prop
  | done a => P a
  | call c next => ∀ a, r c a → Ensures r P (next a)
  | tell _ rest => Ensures r P rest

@[simp] theorem ensures_done {P : α → Prop} {a : α} :
    (done a : Job ε α).Ensures r P ↔ P a := Iff.rfl

@[simp] theorem ensures_call {P : α → Prop} {c : Call} {next : Answer → Job ε α} :
    (call c next).Ensures r P ↔ ∀ a, r c a → (next a).Ensures r P := Iff.rfl

@[simp] theorem ensures_tell {P : α → Prop} {e : ε} {rest : Job ε α} :
    (tell e rest).Ensures r P ↔ rest.Ensures r P := Iff.rfl

/-- A weaker property of the value. -/
theorem Ensures.mono {P Q : α → Prop} {j : Job ε α} (hj : j.Ensures r P) (h : ∀ a, P a → Q a) :
    j.Ensures r Q := by
  induction j with
  | done a => exact h a hj
  | call c next ih => exact fun a ha => ih a (hj a ha)
  | tell e rest ih => exact ih hj

/-- What holds of every value needs no job. -/
theorem ensures_of_forall {P : α → Prop} (h : ∀ a, P a) (j : Job ε α) : j.Ensures r P := by
  induction j with
  | done a => exact h a
  | call c next ih => exact fun a _ => ih a
  | tell e rest ih => exact ih

theorem ensures_true (j : Job ε α) : j.Ensures r fun _ => True := ensures_of_forall (fun _ => trivial) j

/-- **Sequencing.** What goes on with the value of a job may rely on what the job ensures. -/
theorem Ensures.bind {P : α → Prop} {Q : β → Prop} {j : Job ε α} {f : α → Job ε β}
    (hj : j.Ensures r P) (hf : ∀ a, P a → (f a).Ensures r Q) : (j.bind f).Ensures r Q := by
  induction j with
  | done a => exact hf a hj
  | call c next ih => exact fun a ha => ih a (hj a ha)
  | tell e rest ih => exact ih hj

/-- Jobs one after the other end as each of them does. -/
theorem ensures_inTurn {P : β → α → Prop} {f : β → Job ε α} {bs : List β}
    (h : ∀ b ∈ bs, (f b).Ensures r (P b)) : (inTurn (bs.map f)).Ensures r (List.Forall₂ P bs) := by
  induction bs with
  | nil => exact List.Forall₂.nil
  | cons b rest ih =>
    obtain ⟨hb, hrest⟩ := List.forall_mem_cons.1 h
    exact hb.bind fun a ha => (ih hrest).bind fun as has => List.Forall₂.cons ha has

/-- **A step keeps what a job ensures.** -/
theorem Ensures.takes {P : α → Prop} {j j' : Job ε α} {s : Step ε} (hj : j.Ensures r P)
    (h : j.Takes r s j') : j'.Ensures r P := by
  cases h with
  | call ha => exact hj _ ha
  | tell => exact hj

/-- Against a runner with one answer for each call, a job ensures what holds of its value. -/
theorem ensures_exactly {answer : Call → Answer} {P : α → Prop} {j : Job ε α} :
    j.Ensures (.exactly answer) P ↔ P (j.value answer) := by
  induction j with
  | done a => exact Iff.rfl
  | call c next ih =>
    rw [ensures_call]
    constructor
    · intro h
      exact (ih (answer c)).1 (h (answer c) rfl)
    · rintro h a rfl
      exact (ih (answer c)).2 h
  | tell e rest ih => exact ih

/-- A value with which some course of a job ends. -/
inductive MayEnd (r : Runner) : Job ε α → α → Prop where
  | done {a : α} : MayEnd r (.done a) a
  | step {j j' : Job ε α} {s : Step ε} {a : α} (h : j.Takes r s j') (hj : MayEnd r j' a) : MayEnd r j a

/-- A job ends with a value that one of its courses leads to. -/
theorem ensures_mayEnd (j : Job ε α) : j.Ensures r (j.MayEnd r) := by
  induction j with
  | done a => exact .done
  | call c next ih => exact fun a ha => (ih a).mono fun _ h => .step (.call ha) h
  | tell e rest ih => exact ih.mono fun _ h => .step .tell h

/-- What a job ensures holds of every value that it may end with. -/
theorem MayEnd.of_ensures {P : α → Prop} {j : Job ε α} {a : α} (h : j.MayEnd r a)
    (hj : j.Ensures r P) : P a := by
  induction h with
  | done => exact hj
  | step hs _ ih => exact ih (hj.takes hs)

/-- Every job may end in some way. -/
theorem exists_mayEnd (hr : r.Total) (j : Job ε α) : ∃ a, j.MayEnd r a := by
  induction j with
  | done a => exact ⟨a, .done⟩
  | call c next ih =>
    obtain ⟨answer, hanswer⟩ := hr c
    obtain ⟨a, ha⟩ := ih answer
    exact ⟨a, .step (.call hanswer) ha⟩
  | tell e rest ih =>
    obtain ⟨a, ha⟩ := ih
    exact ⟨a, .step .tell ha⟩

/-- A course of a job and one of what goes on with its value are a course of both. -/
theorem MayEnd.bind {j : Job ε α} {f : α → Job ε β} {a : α} {b : β} (h : j.MayEnd r a)
    (hf : (f a).MayEnd r b) : (j.bind f).MayEnd r b := by
  induction h with
  | done => exact hf
  | step hs _ ih =>
    cases hs with
    | call hanswer => exact .step (.call hanswer) (ih hf)
    | tell => exact .step .tell (ih hf)

/-- A course of a job: the steps that it takes, and the value with which it ends. -/
inductive Course (r : Runner) : Job ε α → List (Step ε) → α → Prop where
  | done {a : α} : Course r (.done a) [] a
  | step {j j' : Job ε α} {s : Step ε} {ss : List (Step ε)} {a : α} (h : j.Takes r s j')
      (hj : Course r j' ss a) : Course r j (s :: ss) a

/-- A job may end with a value when one of its courses does. -/
theorem mayEnd_iff {j : Job ε α} {a : α} : j.MayEnd r a ↔ ∃ ss, j.Course r ss a := by
  constructor
  · intro h
    induction h with
    | done => exact ⟨[], .done⟩
    | step hs _ ih =>
      obtain ⟨ss, hss⟩ := ih
      exact ⟨_, .step hs hss⟩
  · rintro ⟨ss, h⟩
    induction h with
    | done => exact .done
    | step hs _ ih => exact .step hs ih

theorem Course.mayEnd {j : Job ε α} {ss : List (Step ε)} {a : α} (h : j.Course r ss a) :
    j.MayEnd r a := mayEnd_iff.2 ⟨ss, h⟩

/-- Every job has a course. -/
theorem exists_course (hr : r.Total) (j : Job ε α) : ∃ ss a, j.Course r ss a := by
  obtain ⟨a, ha⟩ := exists_mayEnd hr j
  obtain ⟨ss, hss⟩ := mayEnd_iff.1 ha
  exact ⟨ss, a, hss⟩

/-- A job that is done takes no more steps. -/
theorem course_done {a b : α} {ss : List (Step ε)} :
    (done a : Job ε α).Course r ss b ↔ ss = [] ∧ b = a := by
  constructor
  · intro h
    cases h with
    | done => exact ⟨rfl, rfl⟩
    | step hs => cases hs
  · rintro ⟨rfl, rfl⟩
    exact .done

/-- A job that tells of an event does so first. -/
theorem course_tell {e : ε} {rest : Job ε α} {ss : List (Step ε)} {a : α} :
    (tell e rest).Course r ss a ↔ ∃ ss', ss = .told e :: ss' ∧ rest.Course r ss' a := by
  constructor
  · intro h
    cases h with
    | step hs hj =>
      cases hs
      exact ⟨_, rfl, hj⟩
  · rintro ⟨ss', rfl, h⟩
    exact .step .tell h

/-- **A course of two jobs, one after the other, is cut in two.** -/
theorem course_bind {j : Job ε α} {f : α → Job ε β} {ss : List (Step ε)} {b : β} :
    (j.bind f).Course r ss b ↔
      ∃ ss₁ ss₂ a, ss = ss₁ ++ ss₂ ∧ j.Course r ss₁ a ∧ (f a).Course r ss₂ b := by
  constructor
  · intro h
    induction j generalizing ss with
    | done a => exact ⟨[], ss, a, rfl, .done, h⟩
    | call c next ih =>
      cases h with
      | step hs hj =>
        cases hs with
        | call hanswer =>
          obtain ⟨ss₁, ss₂, a, rfl, h₁, h₂⟩ := ih _ hj
          exact ⟨_, ss₂, a, rfl, .step (.call hanswer) h₁, h₂⟩
    | tell e rest ih =>
      cases h with
      | step hs hj =>
        cases hs
        obtain ⟨ss₁, ss₂, a, rfl, h₁, h₂⟩ := ih hj
        exact ⟨_, ss₂, a, rfl, .step .tell h₁, h₂⟩
  · rintro ⟨ss₁, ss₂, a, rfl, h₁, h₂⟩
    induction h₁ with
    | done => exact h₂
    | step hs _ ih =>
      cases hs with
      | call hanswer => exact .step (.call hanswer) (ih h₂)
      | tell => exact .step .tell (ih h₂)

@[simp] theorem calls_append (ss ss' : List (Step ε)) : calls (ss ++ ss') = calls ss ++ calls ss' :=
  List.filterMap_append

@[simp] theorem events_append (ss ss' : List (Step ε)) :
    events (ss ++ ss') = events ss ++ events ss' :=
  List.filterMap_append

/-- Against a runner with one answer for each call, a job may end with its value only. -/
theorem mayEnd_exactly {answer : Call → Answer} {j : Job ε α} {a : α} :
    j.MayEnd (.exactly answer) a ↔ a = j.value answer := by
  constructor
  · intro h
    exact h.of_ensures (P := (· = j.value answer)) (ensures_exactly.2 rfl)
  · rintro rfl
    exact ensures_exactly.1 (ensures_mayEnd j)

/-- All calls that a job may make, whatever it is answered, have a property. -/
def OnlyCalls (P : Call → Prop) : Job ε α → Prop
  | done _ => True
  | call c next => P c ∧ ∀ a, OnlyCalls P (next a)
  | tell _ rest => OnlyCalls P rest

@[simp] theorem onlyCalls_done {P : Call → Prop} {a : α} : (done a : Job ε α).OnlyCalls P ↔ True :=
  Iff.rfl

@[simp] theorem onlyCalls_call {P : Call → Prop} {c : Call} {next : Answer → Job ε α} :
    (call c next).OnlyCalls P ↔ P c ∧ ∀ a, (next a).OnlyCalls P := Iff.rfl

@[simp] theorem onlyCalls_tell {P : Call → Prop} {e : ε} {rest : Job ε α} :
    (tell e rest).OnlyCalls P ↔ rest.OnlyCalls P := Iff.rfl

/-- A weaker property of the calls. -/
theorem OnlyCalls.mono {P Q : Call → Prop} {j : Job ε α} (hj : j.OnlyCalls P) (h : ∀ c, P c → Q c) :
    j.OnlyCalls Q := by
  induction j with
  | done a => trivial
  | call c next ih => exact ⟨h c hj.1, fun a => ih a (hj.2 a)⟩
  | tell e rest ih => exact ih hj

/-- A job and what goes on with its value make the calls of both. -/
theorem OnlyCalls.bind {P : Call → Prop} {j : Job ε α} {f : α → Job ε β} (hj : j.OnlyCalls P)
    (hf : ∀ a, (f a).OnlyCalls P) : (j.bind f).OnlyCalls P := by
  induction j with
  | done a => exact hf a
  | call c next ih => exact ⟨hj.1, fun a => ih a (hj.2 a)⟩
  | tell e rest ih => exact ih hj

/-- **A step is a call of the job**, or none, and leaves it with the others. -/
theorem OnlyCalls.takes {P : Call → Prop} {j j' : Job ε α} {s : Step ε} (hj : j.OnlyCalls P)
    (h : j.Takes r s j') : (∀ c ∈ calls [s], P c) ∧ j'.OnlyCalls P := by
  cases h with
  | call ha => exact ⟨fun c hc => List.mem_singleton.1 hc ▸ hj.1, hj.2 _⟩
  | tell => exact ⟨fun c hc => absurd hc List.not_mem_nil, hj⟩

/-- No job goes on for ever. -/
theorem acc_takes (j : Job ε α) : Acc (fun j' j => ∃ s, Takes r j s j') j := by
  induction j with
  | done a => exact .intro _ fun _ ⟨_, h⟩ => by cases h
  | call c next ih =>
    refine .intro _ ?_
    rintro _ ⟨_, h⟩
    cases h with
    | call => exact ih _
  | tell e rest ih =>
    refine .intro _ ?_
    rintro _ ⟨_, h⟩
    cases h
    exact ih

/-- A job is done, or it can take a step. -/
theorem progress (hr : r.Total) (j : Job ε α) : (∃ a, j = done a) ∨ ∃ s j', j.Takes r s j' := by
  cases j with
  | done a => exact .inl ⟨a, rfl⟩
  | call c next =>
    obtain ⟨a, ha⟩ := hr c
    exact .inr ⟨_, _, .call ha⟩
  | tell e rest => exact .inr ⟨_, _, .tell⟩

/-- Two functions that agree on the calls that a job makes give it the same course. -/
theorem run_congr {answer answer' : Call → Answer} {j : Job ε α}
    (h : ∀ c ∈ calls (j.steps answer), answer' c = answer c) : j.run answer' = j.run answer := by
  induction j with
  | done a => rfl
  | call c next ih =>
    have hc : answer' c = answer c := h c List.mem_cons_self
    have hnext : (next (answer c)).run answer' = (next (answer c)).run answer :=
      ih _ fun d hd => h d (List.mem_cons_of_mem _ hd)
    rw [run, run, hc, hnext]
  | tell e rest ih => rw [run, run, ih h]

end Job

/-- Jobs that are carried out side by side. -/
abbrev Crew (ε α : Type) := List (Job ε α)

namespace Crew

variable {ε α β : Type} {r : Runner}

/-- One job of a crew takes a step; the others rest. -/
inductive Takes (r : Runner) : Crew ε α → Job.Step ε → Crew ε α → Prop where
  | first {j j' : Job ε α} {s : Job.Step ε} {js : Crew ε α} (h : j.Takes r s j') :
      Takes r (j :: js) s (j' :: js)
  | later {j : Job ε α} {s : Job.Step ε} {js js' : Crew ε α} (h : Takes r js s js') :
      Takes r (j :: js) s (j :: js')

/-- The crew of which every job is done. -/
def finished (as : List α) : Crew ε α := as.map .done

/-- Each job of a crew ensures a property of its own. -/
def Ensures (r : Runner) (P : β → α → Prop) (bs : List β) (js : Crew ε α) : Prop :=
  List.Forall₂ (fun b j => j.Ensures r (P b)) bs js

/-- A crew of one job for each item of a list. -/
theorem ensures_map {P : β → α → Prop} {f : β → Job ε α} (bs : List β)
    (h : ∀ b ∈ bs, (f b).Ensures r (P b)) : Ensures r P bs (bs.map f) := by
  induction bs with
  | nil => exact .nil
  | cons b rest ih =>
    exact .cons (h b List.mem_cons_self) (ih fun c hc => h c (List.mem_cons_of_mem _ hc))

/-- **A step keeps what a crew ensures.** -/
theorem Ensures.takes {P : β → α → Prop} {bs : List β} {js js' : Crew ε α} {s : Job.Step ε}
    (hjs : Ensures r P bs js) (h : Takes r js s js') : Ensures r P bs js' := by
  induction h generalizing bs with
  | first hj =>
    cases hjs with
    | cons hb hrest => exact .cons (hb.takes hj) hrest
  | later _ ih =>
    cases hjs with
    | cons hb hrest => exact .cons hb (ih hrest)

/-- What a crew ensures holds of its values when every job is done. -/
theorem ensures_finished {P : β → α → Prop} {bs : List β} {as : List α} :
    Ensures r P bs (finished as : Crew ε α) ↔ List.Forall₂ P bs as := by
  rw [Ensures, finished, List.forall₂_map_right_iff]
  exact Iff.rfl

/-- **A step is a call of one of the jobs**, or none, and leaves the crew with the others. -/
theorem onlyCalls_takes {P : Call → Prop} {js js' : Crew ε α} {s : Job.Step ε}
    (hjs : ∀ j ∈ js, j.OnlyCalls P) (h : Takes r js s js') :
    (∀ c ∈ Job.calls [s], P c) ∧ ∀ j ∈ js', j.OnlyCalls P := by
  induction h with
  | first hj =>
    obtain ⟨hfirst, hrest⟩ := List.forall_mem_cons.1 hjs
    obtain ⟨hcalls, hj'⟩ := hfirst.takes hj
    exact ⟨hcalls, List.forall_mem_cons.2 ⟨hj', hrest⟩⟩
  | later _ ih =>
    obtain ⟨hfirst, hrest⟩ := List.forall_mem_cons.1 hjs
    obtain ⟨hcalls, hrest'⟩ := ih hrest
    exact ⟨hcalls, List.forall_mem_cons.2 ⟨hfirst, hrest'⟩⟩

/-- No crew goes on for ever. The induction is on the steps that the first job has left,
and within it on those of the others. -/
theorem acc_takes (js : Crew ε α) : Acc (fun js' js => ∃ s, Takes r js s js') js := by
  induction js with
  | nil => exact .intro _ fun _ ⟨_, h⟩ => by cases h
  | cons j js ih =>
    induction Job.acc_takes (r := r) j generalizing js with
    | intro j _ ihj =>
      induction ih with
      | intro js hjs ihjs =>
        refine .intro _ ?_
        rintro _ ⟨s, h⟩
        cases h with
        | first h => exact ihj _ ⟨s, h⟩ _ (.intro js hjs)
        | later h => exact ihjs _ ⟨s, h⟩

/-- Every job of a crew is done, or one of them can take a step. -/
theorem progress (hr : r.Total) (js : Crew ε α) :
    (∃ as, js = finished as) ∨ ∃ s js', Takes r js s js' := by
  induction js with
  | nil => exact .inl ⟨[], rfl⟩
  | cons j js ih =>
    rcases j.progress hr with ⟨a, rfl⟩ | ⟨s, j', h⟩
    · rcases ih with ⟨as, rfl⟩ | ⟨s, js', h⟩
      · exact .inl ⟨a :: as, rfl⟩
      · exact .inr ⟨s, _, .later h⟩
    · exact .inr ⟨s, _, .first h⟩

end Crew
end LintMerge
