/-
# The schedules of a batch

A batch goes through four phases. The probes of its linters are a crew, side by side;
when all are done the linters that answered are selected; their attempts are a crew
again; when all are done the report is made. A move of a batch (`Moves`) is one step of
one job, or the change from a phase that is finished to the next. Nothing is said of
whose turn it is, so a schedule is any sequence of moves, and `Inevitably` tells what
all of them come to: each ends, and each with a result that has the property.

Whether it does is decided by the probes and the attempts one by one: when every probe
and every attempt ensures a property of its own, the result of every schedule is the
report of attempts that have theirs, of the linters whose probes, having theirs, answered
(`inevitably_report`).
-/

import LintMerge.Batch.Run
import LintMerge.Proofs.Process.Course

namespace LintMerge
namespace Batch

/-- A batch of some tools on its way. From the end of the probes on it is known how they ended. -/
inductive Phase where
  | probing (ts : List Tool) (crew : Crew Event Bool)
  | selecting (flags : List Bool) (job : Job Event (List Tool))
  | attempting (flags : List Bool) (crew : Crew Event Attempt)
  | concluding (flags : List Bool) (job : Job Event Result)

variable {h : Host} {t : Stamp} {o : Options} {r : Runner}

/-- A batch that starts out with tools; without files it only tells so. -/
def initial (h : Host) (t : Stamp) (o : Options) (ts : List Tool) : Phase :=
  if o.files.isEmpty then .concluding [] (runOverNothing h t o)
  else .probing ts (ts.map (probe h o))

/-- A batch that starts out with the tools that a registry has of the linters it asks for. -/
def start (h : Host) (reg : Registry) (t : Stamp) (o : Options) : Except String Phase :=
  (chosen reg o).map (initial h t o)

/-- A move of a batch, with the steps that it is seen to take: one step of one job, or none
where a phase that is finished gives way to the next. -/
inductive Moves (h : Host) (t : Stamp) (o : Options) (r : Runner) :
    Phase → List (Job.Step Event) → Phase → Prop where
  | probe {ts : List Tool} {crew crew' : Crew Event Bool} {s : Job.Step Event}
      (hs : Crew.Takes r crew s crew') : Moves h t o r (.probing ts crew) [s] (.probing ts crew')
  | probed {ts : List Tool} {flags : List Bool} :
      Moves h t o r (.probing ts (Crew.finished flags)) []
        (.selecting flags (select (ts.zip flags)))
  | select {flags : List Bool} {job job' : Job Event (List Tool)} {s : Job.Step Event}
      (hs : job.Takes r s job') : Moves h t o r (.selecting flags job) [s] (.selecting flags job')
  | selected {flags : List Bool} {ts : List Tool} :
      Moves h t o r (.selecting flags (.done ts)) [] (.attempting flags (ts.map (attempt h o)))
  | attempt {flags : List Bool} {crew crew' : Crew Event Attempt} {s : Job.Step Event}
      (hs : Crew.Takes r crew s crew') :
      Moves h t o r (.attempting flags crew) [s] (.attempting flags crew')
  | attempted {flags : List Bool} {as : List Attempt} :
      Moves h t o r (.attempting flags (Crew.finished as)) []
        (.concluding flags (.done (report h t o as)))
  | conclude {flags : List Bool} {job job' : Job Event Result} {s : Job.Step Event}
      (hs : job.Takes r s job') : Moves h t o r (.concluding flags job) [s] (.concluding flags job')

/-- Whatever moves a batch makes, it ends, and the ends of its probes and its result have a
property: it has ended so, or it can move and every move leads to where this holds. -/
inductive Inevitably (h : Host) (t : Stamp) (o : Options) (r : Runner)
    (P : List Bool → Result → Prop) : Phase → Prop where
  | ended {flags : List Bool} {res : Result} (hres : P flags res) :
      Inevitably h t o r P (.concluding flags (.done res))
  | moving {p : Phase} (can : ∃ ss p', Moves h t o r p ss p')
      (all : ∀ ss p', Moves h t o r p ss p' → Inevitably h t o r P p') : Inevitably h t o r P p

/-- A batch goes from a phase to another by some moves, and is seen to take their steps. -/
inductive Goes (h : Host) (t : Stamp) (o : Options) (r : Runner) :
    Phase → List (Job.Step Event) → Phase → Prop where
  | nowhere {p : Phase} : Goes h t o r p [] p
  | move {p p' p'' : Phase} {ss ss' : List (Job.Step Event)} (hm : Moves h t o r p ss p')
      (hg : Goes h t o r p' ss' p'') : Goes h t o r p (ss ++ ss') p''

/-- Whether a phase comes after another by a move. -/
def After (h : Host) (t : Stamp) (o : Options) (r : Runner) (p' p : Phase) : Prop :=
  ∃ ss, Moves h t o r p ss p'

/-- The end of a batch is its last phase, and it is as long as its job. -/
theorem acc_concluding (flags : List Bool) (job : Job Event Result) :
    Acc (After h t o r) (.concluding flags job) := by
  induction Job.acc_takes (r := r) job with
  | intro job _ ih =>
    refine .intro _ ?_
    rintro _ ⟨_, hm⟩
    cases hm with
    | conclude hs => exact ih _ ⟨_, hs⟩

theorem acc_attempting (flags : List Bool) (crew : Crew Event Attempt) :
    Acc (After h t o r) (.attempting flags crew) := by
  induction Crew.acc_takes (r := r) crew with
  | intro crew _ ih =>
    refine .intro _ ?_
    rintro _ ⟨_, hm⟩
    cases hm with
    | attempt hs => exact ih _ ⟨_, hs⟩
    | attempted => exact acc_concluding flags _

theorem acc_selecting (flags : List Bool) (job : Job Event (List Tool)) :
    Acc (After h t o r) (.selecting flags job) := by
  induction Job.acc_takes (r := r) job with
  | intro job _ ih =>
    refine .intro _ ?_
    rintro _ ⟨_, hm⟩
    cases hm with
    | select hs => exact ih _ ⟨_, hs⟩
    | selected => exact acc_attempting flags _

theorem acc_probing (ts : List Tool) (crew : Crew Event Bool) :
    Acc (After h t o r) (.probing ts crew) := by
  induction Crew.acc_takes (r := r) crew with
  | intro crew _ ih =>
    refine .intro _ ?_
    rintro _ ⟨_, hm⟩
    cases hm with
    | probe hs => exact ih _ ⟨_, hs⟩
    | probed => exact acc_selecting _ _

/-- **No schedule goes on for ever.** -/
theorem acc_after (p : Phase) : Acc (After h t o r) p := by
  cases p with
  | probing ts crew => exact acc_probing ts crew
  | selecting flags job => exact acc_selecting flags job
  | attempting flags crew => exact acc_attempting flags crew
  | concluding flags job => exact acc_concluding flags job

/-- **No schedule is stuck.** A batch has ended, or it can move. -/
theorem Phase.progress (hr : r.Total) (p : Phase) :
    (∃ flags res, p = .concluding flags (.done res)) ∨ ∃ ss p', Moves h t o r p ss p' := by
  cases p with
  | probing ts crew =>
    rcases Crew.progress hr crew with ⟨flags, rfl⟩ | ⟨s, crew', hs⟩
    · exact .inr ⟨_, _, .probed⟩
    · exact .inr ⟨_, _, .probe hs⟩
  | selecting flags job =>
    rcases job.progress hr with ⟨ts, rfl⟩ | ⟨s, job', hs⟩
    · exact .inr ⟨_, _, .selected⟩
    · exact .inr ⟨_, _, .select hs⟩
  | attempting flags crew =>
    rcases Crew.progress hr crew with ⟨as, rfl⟩ | ⟨s, crew', hs⟩
    · exact .inr ⟨_, _, .attempted⟩
    · exact .inr ⟨_, _, .attempt hs⟩
  | concluding flags job =>
    rcases job.progress hr with ⟨res, rfl⟩ | ⟨s, job', hs⟩
    · exact .inl ⟨flags, res, rfl⟩
    · exact .inr ⟨_, _, .conclude hs⟩

/-- **Invariants.** What every move keeps, and what tells at the end that the result has a
property, tells from the start that the property is inevitable. -/
theorem inevitably_of_invariant (hr : r.Total) {I : Phase → Prop} {P : List Bool → Result → Prop}
    (keeps : ∀ p ss p', Moves h t o r p ss p' → I p → I p')
    (final : ∀ flags res, I (.concluding flags (.done res)) → P flags res) (p : Phase) (hp : I p) :
    Inevitably h t o r P p := by
  induction acc_after (h := h) (t := t) (o := o) (r := r) p with
  | intro p _ ih =>
    rcases p.progress (h := h) (t := t) (o := o) hr with ⟨flags, res, rfl⟩ | can
    · exact .ended (final flags res hp)
    · exact .moving can fun ss p' hm => ih p' ⟨ss, hm⟩ (keeps p ss p' hm hp)

/-- What is inevitable implies what follows from it. -/
theorem Inevitably.mono {P Q : List Bool → Result → Prop} {p : Phase}
    (hp : Inevitably h t o r P p) (hPQ : ∀ flags res, P flags res → Q flags res) :
    Inevitably h t o r Q p := by
  induction hp with
  | ended hres => exact .ended (hPQ _ _ hres)
  | moving can _ ih => exact .moving can ih

/-- What is inevitable stays so, whichever move is made. -/
theorem Inevitably.moves {P : List Bool → Result → Prop} {p p' : Phase} {ss : List (Job.Step Event)}
    (hp : Inevitably h t o r P p) (hm : Moves h t o r p ss p') : Inevitably h t o r P p' := by
  cases hp with
  | ended =>
    cases hm with
    | conclude hs => cases hs
  | moving _ all => exact all ss p' hm

/-- Two things that are inevitable come together. -/
theorem Inevitably.exists_both {P Q : List Bool → Result → Prop} {p : Phase}
    (hP : Inevitably h t o r P p) (hQ : Inevitably h t o r Q p) :
    ∃ flags res, P flags res ∧ Q flags res := by
  induction hP with
  | @ended flags res hres =>
    cases hQ with
    | ended hres' => exact ⟨flags, res, hres, hres'⟩
    | moving can _ =>
      obtain ⟨ss, p', hm⟩ := can
      cases hm with
      | conclude hs => cases hs
  | moving can _ ih =>
    obtain ⟨ss, p', hm⟩ := can
    exact ih ss p' hm (hQ.moves hm)

/-- Those of some linters, or of their tools, that answered their probes. -/
def answered {α : Type} (as : List α) (flags : List Bool) : List α :=
  ((as.zip flags).filter (·.2)).map (·.1)

/-- The selection of linters drops those that did not answer, and calls no program. -/
theorem ensures_select (flags : List (Tool × Bool)) :
    (select flags).Ensures r (· = (flags.filter (·.2)).map (·.1)) := by
  induction flags with
  | nil => exact rfl
  | cons f rest ih =>
    obtain ⟨k, b⟩ := f
    cases b with
    | true =>
      rw [select]
      refine ih.bind fun ts hts => ?_
      rw [hts]
      exact rfl
    | false => exact ih

section Answered

variable {α β : Type}

@[simp] theorem answered_true (a : α) (as : List α) (flags : List Bool) :
    answered (a :: as) (true :: flags) = a :: answered as flags := rfl

@[simp] theorem answered_false (a : α) (as : List α) (flags : List Bool) :
    answered (a :: as) (false :: flags) = answered as flags := rfl

/-- Linters that answered are in the order in which they were asked for. -/
theorem answered_sublist (as : List α) (flags : List Bool) : (answered as flags).Sublist as := by
  induction as generalizing flags with
  | nil => exact .slnil
  | cons a as ih =>
    match flags with
    | [] => exact List.nil_sublist _
    | true :: flags => exact (ih flags).cons_cons a
    | false :: flags => exact (ih flags).cons a

/-- Linters answered as their tools did. -/
theorem answered_map (f : α → β) (as : List α) (flags : List Bool) :
    answered (as.map f) flags = (answered as flags).map f := by
  induction as generalizing flags with
  | nil => rfl
  | cons a as ih =>
    match flags with
    | [] => rfl
    | true :: flags => exact congrArg (f a :: ·) (ih flags)
    | false :: flags => exact ih flags

end Answered

section Properties

variable {ts : List Tool} {Pp : Tool → Bool → Prop} {Pa : Tool → Attempt → Prop}

/-- What a batch comes to whose probes and attempts have properties of their own. -/
def Reported (h : Host) (t : Stamp) (o : Options) (ts : List Tool) (Pp : Tool → Bool → Prop)
    (Pa : Tool → Attempt → Prop) (flags : List Bool) (res : Result) : Prop :=
  List.Forall₂ Pp ts flags ∧
    ∃ as, List.Forall₂ Pa (answered ts flags) as ∧ res = report h t o as

/-- The invariant of a batch: the jobs of its phase ensure what they have to. -/
def Kept (h : Host) (t : Stamp) (o : Options) (r : Runner) (ts : List Tool)
    (Pp : Tool → Bool → Prop) (Pa : Tool → Attempt → Prop) : Phase → Prop
  | .probing ts' crew => ts' = ts ∧ Crew.Ensures r Pp ts crew
  | .selecting flags job => List.Forall₂ Pp ts flags ∧ job.Ensures r (· = answered ts flags)
  | .attempting flags crew =>
    List.Forall₂ Pp ts flags ∧ Crew.Ensures r Pa (answered ts flags) crew
  | .concluding flags job => job.Ensures r (Reported h t o ts Pp Pa flags)

/-- **A move keeps the invariant.** A step of a job keeps what the job ensures, and what a
finished phase has ensured is what the next phase starts from. -/
theorem Kept.moves (ha : ∀ k ∈ ts, (attempt h o k).Ensures r (Pa k)) {p p' : Phase}
    {ss : List (Job.Step Event)} (hm : Moves h t o r p ss p') (hp : Kept h t o r ts Pp Pa p) :
    Kept h t o r ts Pp Pa p' := by
  cases hm with
  | probe hs => exact ⟨hp.1, hp.2.takes hs⟩
  | probed =>
    obtain ⟨rfl, hcrew⟩ := hp
    exact ⟨Crew.ensures_finished.1 hcrew, ensures_select _⟩
  | select hs => exact ⟨hp.1, hp.2.takes hs⟩
  | selected =>
    obtain ⟨hflags, hjob⟩ := hp
    rw [Job.ensures_done] at hjob
    rw [hjob]
    exact ⟨hflags, Crew.ensures_map _ fun k hk => ha k ((answered_sublist ts _).subset hk)⟩
  | attempt hs => exact ⟨hp.1, hp.2.takes hs⟩
  | attempted => exact ⟨hp.1, _, Crew.ensures_finished.1 hp.2, rfl⟩
  | conclude hs => exact hp.takes hs

/-- **What every schedule comes to.** When each probe and each attempt ensures a property,
every schedule of a batch over some files ends with the report of such attempts. -/
theorem inevitably_report (hr : r.Total) (hfiles : o.files ≠ [])
    (hp : ∀ k ∈ ts, (probe h o k).Ensures r (Pp k))
    (ha : ∀ k ∈ ts, (attempt h o k).Ensures r (Pa k)) :
    Inevitably h t o r (Reported h t o ts Pp Pa) (initial h t o ts) := by
  have hstart : initial h t o ts = .probing ts (ts.map (probe h o)) := by
    rw [initial, if_neg (by simpa using hfiles)]
  refine inevitably_of_invariant hr (fun _ _ _ hm => Kept.moves ha hm) (fun _ _ hres => hres) _ ?_
  rw [hstart]
  exact ⟨rfl, Crew.ensures_map ts hp⟩

end Properties

/-- Without files every schedule ends with the report of no attempt, and nothing is probed. -/
theorem inevitably_report_nothing (hr : r.Total) (hfiles : o.files = []) (ts : List Tool) :
    Inevitably h t o r (fun flags res => flags = [] ∧ res = report h t o []) (initial h t o ts) := by
  have hstart : initial h t o ts = .concluding [] (runOverNothing h t o) := by
    rw [initial, if_pos (by simpa using hfiles)]
  refine inevitably_of_invariant hr (I := Kept h t o r [] (fun _ _ => True) fun _ _ => True)
    (fun _ _ _ hm => Kept.moves (fun _ hl => absurd hl List.not_mem_nil) hm) ?_ _ ?_
  · rintro flags res ⟨hflags, as, has, rfl⟩
    cases hflags
    cases has
    exact ⟨rfl, rfl⟩
  · rw [hstart]
    exact ⟨.nil, [], .nil, rfl⟩

end Batch
end LintMerge
