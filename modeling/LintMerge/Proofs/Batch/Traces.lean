/-
# What a batch is seen to do

From where a batch is, a schedule takes it to its end through the phases that are left, and what it
is seen to do on the way is what these phases are seen to do, one after the other (`Phase.Ends`,
`Goes.ends`): the probes side by side, the selection, the attempts side by side. So a schedule of a
batch over some files is cut in three (`ends_of_goes_initial`), and without files it only tells so.
Against a runner with one answer for each call all schedules make the same calls, in some order, and
come to what carrying out one job after the other comes to (`perm_of_goes`).
-/

import LintMerge.Proofs.Batch.Isolation
import LintMerge.Proofs.Process.Crews

namespace LintMerge
namespace Batch

variable {h : Host} {t : Stamp} {o : Options} {r : Runner} {ts : List Tool} {flags : List Bool}
  {res : Result}

/-- How a batch goes on from a phase to its end: the steps that it is seen to take, how its probes
end and what it comes to. -/
def Phase.Ends (h : Host) (t : Stamp) (o : Options) (r : Runner) :
    Phase → List (Job.Step Event) → List Bool → Result → Prop
  | .concluding flags' job, ss, flags, res => flags' = flags ∧ job.Course r ss res
  | .attempting flags' crew, ss, flags, res =>
    flags' = flags ∧ ∃ as, Crew.Course r crew ss as ∧ res = report h t o as
  | .selecting flags' job, ss, flags, res =>
    flags' = flags ∧ ∃ ss₁ ss₂ ts as, ss = ss₁ ++ ss₂ ∧ job.Course r ss₁ ts ∧
      Crew.Course r (ts.map (attempt h o)) ss₂ as ∧ res = report h t o as
  | .probing ts crew, ss, flags, res =>
    ∃ ss₁ ss₂ ss₃ ts' as, ss = ss₁ ++ (ss₂ ++ ss₃) ∧ Crew.Course r crew ss₁ flags ∧
      (select (ts.zip flags)).Course r ss₂ ts' ∧ Crew.Course r (ts'.map (attempt h o)) ss₃ as ∧
        res = report h t o as

/-- **A move in front of what is left.** -/
theorem Phase.Ends.moves {p p' : Phase} {ss ss' : List (Job.Step Event)} (hm : Moves h t o r p ss p')
    (hp' : p'.Ends h t o r ss' flags res) : p.Ends h t o r (ss ++ ss') flags res := by
  cases hm with
  | probe hs =>
    obtain ⟨ss₁, ss₂, ss₃, ts', as, rfl, hprobes, hrest⟩ := hp'
    exact ⟨_, ss₂, ss₃, ts', as, rfl, .step hs hprobes, hrest⟩
  | probed =>
    obtain ⟨rfl, ss₂, ss₃, ts', as, rfl, hrest⟩ := hp'
    exact ⟨[], ss₂, ss₃, ts', as, rfl, .finished, hrest⟩
  | select hs =>
    obtain ⟨rfl, ss₁, ss₂, ts, as, rfl, hselect, hrest⟩ := hp'
    exact ⟨rfl, _, ss₂, ts, as, rfl, .step hs hselect, hrest⟩
  | selected =>
    obtain ⟨rfl, as, hattempts, rfl⟩ := hp'
    exact ⟨rfl, [], _, _, as, rfl, .done, hattempts, rfl⟩
  | attempt hs =>
    obtain ⟨rfl, as, hattempts, rfl⟩ := hp'
    exact ⟨rfl, as, .step hs hattempts, rfl⟩
  | attempted =>
    obtain ⟨rfl, hreport⟩ := hp'
    obtain ⟨rfl, rfl⟩ := Job.course_done.1 hreport
    exact ⟨rfl, _, .finished, rfl⟩
  | conclude hs => exact ⟨hp'.1, .step hs hp'.2⟩

/-- **A schedule passes through the phases.** The induction is on the moves. -/
theorem Goes.ends {p : Phase} {ss : List (Job.Step Event)}
    (hg : Goes h t o r p ss (.concluding flags (.done res))) : p.Ends h t o r ss flags res := by
  generalize hend : Phase.concluding flags (.done res) = p' at hg
  induction hg with
  | nowhere =>
    subst hend
    exact ⟨rfl, .done⟩
  | move hm _ ih => exact .moves hm (ih hend)

/-- **Some schedule takes a batch to its end.** -/
theorem exists_goes (h : Host) (t : Stamp) (o : Options) (hr : r.Total) (p : Phase) :
    ∃ ss flags res, Goes h t o r p ss (.concluding flags (.done res)) := by
  induction acc_after (h := h) (t := t) (o := o) (r := r) p with
  | intro p _ ih =>
    rcases p.progress (h := h) (t := t) (o := o) hr with ⟨flags, res, rfl⟩ | ⟨ss, p', hm⟩
    · exact ⟨[], flags, res, .nowhere⟩
    · obtain ⟨ss', flags, res, hg⟩ := ih p' ⟨ss, hm⟩
      exact ⟨ss ++ ss', flags, res, .move hm hg⟩

/-- **The three parts of a schedule**: the probes, the selection and the attempts. -/
theorem ends_of_goes_initial {ss : List (Job.Step Event)} (hfiles : o.files ≠ [])
    (hg : Goes h t o r (initial h t o ts) ss (.concluding flags (.done res))) :
    ∃ ss₁ ss₂ ss₃ as, ss = ss₁ ++ (ss₂ ++ ss₃) ∧ Crew.Course r (ts.map (probe h o)) ss₁ flags ∧
      (select (ts.zip flags)).Course r ss₂ (answered ts flags) ∧
        Crew.Course r ((answered ts flags).map (attempt h o)) ss₃ as ∧ res = report h t o as := by
  rw [initial, if_neg (by simpa using hfiles)] at hg
  obtain ⟨ss₁, ss₂, ss₃, ts', as, rfl, hprobes, hselect, hattempts, rfl⟩ := hg.ends
  obtain rfl : ts' = answered ts flags := (ensures_select _).course hselect
  exact ⟨ss₁, ss₂, ss₃, as, rfl, hprobes, hselect, hattempts, rfl⟩

/-- Without files a batch is seen to tell so. -/
theorem ends_of_goes_initial_nothing {ss : List (Job.Step Event)} (hfiles : o.files = [])
    (hg : Goes h t o r (initial h t o ts) ss (.concluding flags (.done res))) :
    ss = [.told (.detail s!"no files to lint under {o.cwd.text}")] ∧ res = report h t o [] := by
  rw [initial, if_pos (by simpa using hfiles)] at hg
  obtain ⟨-, hjob⟩ := hg.ends
  obtain ⟨_, rfl, hdone⟩ := Job.course_tell.1 hjob
  obtain ⟨rfl, rfl⟩ := Job.course_done.1 hdone
  exact ⟨rfl, rfl⟩

/-- **The order of turns does not matter to the calls.** Against a runner with one answer for each
call every schedule is seen to take the steps of one job after the other, in some order, and comes to
what they come to. -/
theorem perm_of_goes {answer : Call → Answer} {ss : List (Job.Step Event)}
    (hg : Goes h t o (.exactly answer) (initial h t o ts) ss (.concluding flags (.done res))) :
    ss.Perm ((runOver h t o ts).steps answer) ∧ res = (runOver h t o ts).value answer := by
  by_cases hfiles : o.files = []
  · obtain ⟨rfl, rfl⟩ := ends_of_goes_initial_nothing hfiles hg
    rw [runOver, if_pos (by simpa using hfiles)]
    exact ⟨.rfl, rfl⟩
  · obtain ⟨ss₁, ss₂, ss₃, as, rfl, hprobes, hselect, hattempts, rfl⟩ := ends_of_goes_initial hfiles hg
    obtain ⟨rfl, hfirst⟩ := Crew.perm_of_course hprobes
    obtain ⟨rfl, hanswered⟩ := Job.course_exactly.1 hselect
    obtain ⟨rfl, hlast⟩ := Crew.perm_of_course hattempts
    rw [runOver, if_neg (by simpa using hfiles), runLinters]
    simp only [attempts, Job.steps_bind, Job.value_bind, Job.steps_inTurn, Job.value_inTurn,
      ← hanswered, Job.steps_done, Job.value_done, List.append_nil, and_true]
    exact hfirst.append (.append_left _ hlast)

end Batch
end LintMerge
