/-
# What a display shows of a batch

A display notes the events of a batch as they are told, and takes notice of those that tell of
linters (`Progress.foldl_note`). What it is told is shuffled from the calls of the linters that are
attempted and from those of the linters that are skipped (`shuffles_of_goes`), as each attempt tells
of its start and of its end. So no schedule leaves a row running: at its end there is one settled
row for each run of the report (`displayed_of_goes`).
-/

import LintMerge.Proofs.Batch.Hooks
import LintMerge.Proofs.Config.Selection
import LintMerge.Proofs.Console.Rows

namespace LintMerge

/-- What a display is told by an event, if anything. -/
def Event.call? : Event → Option Progress.Call
  | skipped l => some (.skipped l.name)
  | started l => some (.started l.name)
  | finished run => some (.finished run.linter.name run.success)
  | detail _ => none
  | warning _ => none
  | notice _ => none

namespace Progress

/-- **A display that notes events** is told what they tell it, one after the other. -/
theorem foldl_note (p : Progress) (es : List Event) :
    es.foldl note p = p.takeAll (es.filterMap Event.call?) := by
  induction es generalizing p with
  | nil => rfl
  | cons e es ih =>
    rw [List.foldl_cons, ih, List.filterMap_cons]
    cases e <;> rfl

/-- Events that tell of no linter tell a display nothing. -/
theorem filterMap_hooks (es : List Event) :
    (Event.hooks es).filterMap Event.call? = es.filterMap Event.call? := by
  rw [Event.hooks, List.filterMap_filter]
  refine List.filterMap_congr fun e _ => ?_
  cases e <;> rfl

end Progress

namespace Batch

open Progress (Call callsOf verdict)

variable {h : Host} {t : Stamp} {o : Options} {r : Runner} {ts : List Tool} {flags : List Bool}
  {ss : List (Job.Step Event)} {as : List Attempt} {res : Result}

/-- What attempts come to, by the names of their linters. -/
def outcomes (as : List Attempt) : List (String × Bool) :=
  as.map fun a => (a.run.linter.name, a.run.success)

/-- **What attempts tell a display** is shuffled from the starts and the ends of their linters. The
induction is on the tools, of which the first takes its steps among those of the others. -/
theorem shuffles_of_attempts (hss : Crew.Course r (ts.map (attempt h o)) ss as) :
    Shuffles ((outcomes as).map Call.ofRun) ((Job.events ss).filterMap Event.call?) ∧
      as.map (·.run.linter) = ts.map (·.linter) := by
  induction ts generalizing ss as with
  | nil =>
    obtain ⟨rfl, rfl⟩ := Crew.course_nil.1 hss
    exact ⟨.nil, rfl⟩
  | cons k ts ih =>
    obtain ⟨ss₁, ss₂, a, as, rfl, hshuffle, hattempt, hrest⟩ := Crew.course_cons.1 hss
    obtain ⟨hothers, hlinters⟩ := ih hrest
    obtain ⟨hhooks, hlinter⟩ := hooks_attempt hattempt
    have hfirst : (Job.events ss₁).filterMap Event.call? =
        Call.ofRun (a.run.linter.name, a.run.success) := by
      rw [← Progress.filterMap_hooks, hhooks, ← hlinter]
      rfl
    refine ⟨.cons hothers ?_, by rw [List.map_cons, hlinter, hlinters, List.map_cons]⟩
    rw [← hfirst]
    exact (hshuffle.filterMap _).filterMap _

/-- **What a schedule tells a display** is shuffled from what is told of each linter. -/
theorem shuffles_of_goes (hfiles : o.files ≠ [])
    (hg : Goes h t o r (initial h t o ts) ss (.concluding flags (.done res))) :
    ∃ as, res = report h t o as ∧ as.map (·.run.linter) = answered (ts.map (·.linter)) flags ∧
      Shuffles (callsOf (outcomes as) ((unanswered (ts.map (·.linter)) flags).map Linter.name))
        ((Job.events ss).filterMap Event.call?) := by
  obtain ⟨-, ss', as, hhooks, hattempts, rfl⟩ := hooks_of_goes hfiles hg
  obtain ⟨hshuffles, hlinters⟩ := shuffles_of_attempts hattempts
  have hearly (ks : List Linter) : (ks.map Event.skipped).filterMap Event.call? =
      (ks.map Linter.name).map Call.skipped := by
    rw [List.filterMap_map, List.map_map]
    exact congrFun (List.filterMap_eq_map (f := Call.skipped ∘ Linter.name)) ks
  refine ⟨as, rfl, by rw [hlinters, answered_map], ?_⟩
  rw [← Progress.filterMap_hooks, hhooks, List.filterMap_append, Progress.filterMap_hooks, hearly]
  have hall := hshuffles.append_singletons
    (((unanswered (ts.map (·.linter)) flags).map Linter.name).map Call.skipped)
  rwa [List.map_map] at hall

/-- **What a display shows at the end of a schedule** over some files. With rows there is one for
each attempt, settled by how its run went, and so for each run of the report; without, a line tells
of each linter that was started or skipped; and a quiet display shows nothing. -/
theorem displayed_of_goes (hfiles : o.files ≠ []) (hts : (ts.map (·.linter)).Nodup)
    (hg : Goes h t o r (initial h t o ts) ss (.concluding flags (.done res))) :
    ∃ runs : List LinterRun, runs.map (·.linter) = answered (ts.map (·.linter)) flags ∧
      (∀ rep, res = .ok rep → rep.linters = runs) ∧
      ((Job.events ss).foldl Progress.note (.start true false)).rows.Perm
        (runs.map fun run => (run.linter.name, verdict run.success)) ∧
      ((Job.events ss).foldl Progress.note (.start false false)).written.Perm
        (((answered (ts.map (·.linter)) flags).map fun l => "lintmesh: running " ++ l.name ++ "...") ++
          (unanswered (ts.map (·.linter)) flags).map fun l => "lintmesh: " ++ l.name ++ " not available, skipping") ∧
      ∀ interactive, (Job.events ss).foldl Progress.note (.start interactive true) =
        .start interactive true := by
  obtain ⟨as, rfl, hlinters, hshuffles⟩ := shuffles_of_goes hfiles hg
  have hnames : (outcomes as).map (·.1) = (answered (ts.map (·.linter)) flags).map Linter.name := by
    rw [← hlinters, outcomes, List.map_map, List.map_map]
    rfl
  have hnodup : ((outcomes as).map (·.1)).Nodup := by
    rw [hnames]
    exact (hts.sublist (answered_sublist _ flags)).map fun _ _ => Linter.name_inj
  refine ⟨as.map (·.run), ?_, fun rep hrep => ?_, ?_, ?_, fun interactive => ?_⟩
  · rw [List.map_map]
    exact hlinters
  · obtain ⟨-, rfl⟩ := report_eq_ok_iff.1 hrep
    rfl
  · rw [Progress.foldl_note, Progress.rows_takeAll]
    have hrows := Progress.rowsOf_of_shuffles hnodup hshuffles
    rw [outcomes, List.map_map] at hrows
    rwa [List.map_map]
  · have hlines := Progress.lines_of_shuffles hshuffles
    rw [← hlinters, List.map_map]
    rw [outcomes, List.map_map, List.map_map] at hlines
    rwa [Progress.foldl_note, Progress.takeAll_of_lines rfl]
  · rw [Progress.foldl_note, Progress.takeAll_of_quiet rfl]

end Batch
end LintMerge
