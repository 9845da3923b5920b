/-
# What is told of the linters of a batch

A batch tells of its linters when one is skipped, started or finished. Whatever the programs answer
and in whatever order the workers take turns, each linter that it asks for is either skipped, and
nothing else is told of it, or started and then finished, with the run that the report has for it
(`Announced`). The linters that are skipped are told in the order of the request and before any
other is started. Probes and the work between the start and the end of an attempt tell of no linter
(`onlyTells_probe`, `onlyTells_perform`), so this is decided by the selection (`hooks_select`) and,
one by one, by the attempts (`hooks_attempt`), which are shuffled.
-/

import LintMerge.Proofs.Batch.Supply
import LintMerge.Proofs.Batch.Traces
import LintMerge.Proofs.Check.Outcome

namespace LintMerge

namespace Event

/-- The linter that an event tells is skipped, started or finished, if it does. -/
def linter? : Event → Option Linter
  | skipped l => some l
  | started l => some l
  | finished run => some run.linter
  | detail _ => none
  | warning _ => none
  | notice _ => none

/-- The events that tell of linters. -/
def hooks (es : List Event) : List Event := es.filter (·.linter?.isSome)

/-- The events that tell of a linter. -/
def about (l : Linter) (es : List Event) : List Event := es.filter (·.linter? = some l)

variable {es es' : List Event} {l : Linter}

@[simp] theorem hooks_append (es es' : List Event) : hooks (es ++ es') = hooks es ++ hooks es' :=
  List.filter_append _ _

@[simp] theorem about_append (l : Linter) (es es' : List Event) :
    about l (es ++ es') = about l es ++ about l es' :=
  List.filter_append _ _

theorem about_hooks (l : Linter) (es : List Event) : about l (hooks es) = about l es := by
  rw [about, hooks, List.filter_filter]
  refine List.filter_congr fun e _ => ?_
  cases e.linter? <;> simp

theorem hooks_of_silent (h : ∀ e ∈ es, e.linter? = none) : hooks es = [] :=
  List.filter_eq_nil_iff.2 fun e he => by simp [h e he]

theorem about_of_hooks (h : hooks es = es') (l : Linter) : about l es = about l es' := by
  rw [← h, about_hooks]

/-- Of linters that are skipped, each once, each is told once. -/
theorem about_skipped {ls : List Linter} (hls : ls.Nodup) (l : Linter) :
    about l (ls.map skipped) = if l ∈ ls then [skipped l] else [] := by
  induction ls with
  | nil => rfl
  | cons k ls ih =>
    obtain ⟨hk, hls⟩ := List.nodup_cons.1 hls
    rw [List.map_cons, about, List.filter_cons, ← about, ih hls]
    by_cases hkl : k = l
    · subst hkl
      simp [linter?, hk]
    · simp [linter?, hkl, Ne.symm hkl]

end Event

namespace Attempt

variable {h : Host} {k : Tool} {i : Invocation}

theorem onlyTells_probe (k : Tool) (cwd : Path) (p : Program) :
    (probe k cwd p).OnlyTells (·.linter? = none) := by
  rintro (f | o)
  · dsimp only
    split
    · exact ⟨rfl, trivial⟩
    · exact trivial
  · exact trivial

theorem onlyTells_conclude (k : Tool) (i : Invocation) (version : String) (o : Outcome) :
    (conclude k i version o).OnlyTells (·.linter? = none) := by
  unfold conclude read accept failing
  repeat' split
  all_goals first | exact trivial | exact ⟨rfl, trivial⟩

/-- Running a linter tells of none. -/
theorem onlyTells_perform (h : Host) (k : Tool) (i : Invocation) :
    (perform h k i).OnlyTells (·.linter? = none) := by
  rw [perform]
  split
  · exact trivial
  · split
    · exact trivial
    · exact ⟨rfl, trivial⟩
  · refine (onlyTells_probe k i.cwd _).bind ?_
    rintro (f | answer)
    · exact trivial
    · dsimp only
      rw [launch]
      split
      · exact trivial
      · refine ⟨rfl, ?_⟩
        rintro (f | o)
        · exact trivial
        · exact onlyTells_conclude k i _ o

/-- What an attempt may come to: a run of some linter, if no fault ended it. -/
def RunOf (l : Linter) : Except Fault Attempt → Prop
  | .ok a => a.run.linter = l
  | .error _ => True

theorem runOf_conclude {r : Runner} (k : Tool) (i : Invocation) (version : String) (o : Outcome) :
    (conclude k i version o).Ensures r (RunOf k.linter) := by
  unfold conclude read accept failing
  repeat' split
  all_goals first | exact trivial | exact rfl

/-- Whatever a tool does, its attempt is a run of its linter. -/
theorem runOf_perform {r : Runner} (h : Host) (k : Tool) (i : Invocation) :
    (perform h k i).Ensures r (RunOf k.linter) := by
  rw [perform]
  split
  · exact trivial
  · split
    · exact trivial
    · exact rfl
  · next p _ =>
    refine (Job.ensures_of_forall (P := fun _ => True) (fun _ => trivial) (probe k i.cwd p)).bind ?_
    rintro (f | answer) -
    · exact trivial
    · dsimp only
      rw [launch]
      split
      · exact trivial
      · rintro (f | o) -
        · exact trivial
        · exact runOf_conclude k i _ o

end Attempt

namespace Batch

open Event

variable {h : Host} {t : Stamp} {o : Options} {r : Runner} {ls : List Linter} {ts : List Tool}
  {flags : List Bool} {ss : List (Job.Step Event)} {as : List Attempt}

/-- Probing a linter tells of none. -/
theorem onlyTells_probe (h : Host) (o : Options) (k : Tool) :
    (probe h o k).OnlyTells (·.linter? = none) := by
  have havailable :
      (Attempt.available h k o.cwd (o.binOf k.linter.name)).OnlyTells (·.linter? = none) := by
    rw [Attempt.available]
    split
    · exact trivial
    · exact trivial
    · exact (Attempt.onlyTells_probe k o.cwd _).bind fun _ => trivial
  refine havailable.bind ?_
  rintro (f | b)
  · exact ⟨rfl, trivial⟩
  · exact trivial

/-- Those of some linters, or of their tools, that did not answer their probes. -/
def unanswered {α : Type} (as : List α) (flags : List Bool) : List α :=
  ((as.zip flags).filter (!·.2)).map (·.1)

/-- Linters did not answer as their tools did not. -/
theorem unanswered_map {α β : Type} (f : α → β) (as : List α) (flags : List Bool) :
    unanswered (as.map f) flags = (unanswered as flags).map f := by
  rw [unanswered, unanswered, List.zip_map_left, List.filter_map, List.map_map, List.map_map]
  rfl

theorem perm_answered (h : flags.length = ls.length) :
    (answered ls flags ++ unanswered ls flags).Perm ls := by
  have hperm := (List.filter_append_perm (·.2) (ls.zip flags)).map Prod.fst
  rwa [List.map_append, List.map_fst_zip (Nat.le_of_eq h.symm)] at hperm

theorem unanswered_sublist (h : flags.length = ls.length) : (unanswered ls flags).Sublist ls := by
  have hsublist := (List.filter_sublist (p := (!·.2)) (l := ls.zip flags)).map Prod.fst
  rwa [List.map_fst_zip (Nat.le_of_eq h.symm)] at hsublist

/-- **The selection** tells of the linters that it skips, in their order, and makes no call. -/
theorem hooks_select {pairs : List (Tool × Bool)} (hss : (select pairs).Course r ss ts) :
    hooks (Job.events ss) = ((pairs.filter (!·.2)).map (·.1)).map fun k => skipped k.linter := by
  induction pairs generalizing ss ts with
  | nil =>
    obtain ⟨rfl, -⟩ := Job.course_done.1 hss
    rfl
  | cons pair pairs ih =>
    obtain ⟨k, flag⟩ := pair
    cases flag with
    | true =>
      obtain ⟨ss₁, ss₂, ts', rfl, hrest, hdone⟩ := Job.course_bind.1 hss
      obtain ⟨rfl, -⟩ := Job.course_done.1 hdone
      rw [List.append_nil]
      exact ih hrest
    | false =>
      obtain ⟨ss', rfl, hskip⟩ := Job.course_tell.1 hss
      obtain ⟨ss'', rfl, hrest⟩ := Job.course_tell.1 hskip
      exact congrArg (skipped k.linter :: ·) (ih hrest)

/-- **An attempt** tells that its linter is started, and finished with its run. -/
theorem hooks_attempt {k : Tool} {a : Attempt} (hss : (attempt h o k).Course r ss a) :
    hooks (Job.events ss) = [started k.linter, finished a.run] ∧ a.run.linter = k.linter := by
  obtain ⟨ss', rfl, hrest⟩ := Job.course_tell.1 hss
  obtain ⟨ss₁, ss₂, outcome, rfl, hperform, hrest⟩ := Job.course_bind.1 hrest
  obtain ⟨ss₃, ss₄, a', rfl, hsettle, hrest⟩ := Job.course_bind.1 hrest
  obtain ⟨ss₅, rfl, hdone⟩ := Job.course_tell.1 hrest
  obtain ⟨rfl, rfl⟩ := Job.course_done.1 hdone
  have hsilent : (settle k.linter outcome).OnlyTells (·.linter? = none) := by
    cases outcome with
    | error f => exact ⟨rfl, trivial⟩
    | ok a => exact trivial
  have hlinter : a.run.linter = k.linter := by
    have hrun := (Attempt.runOf_perform h k _).course hperform
    have hsettled : (settle k.linter outcome).Ensures r (·.run.linter = k.linter) := by
      cases outcome with
      | error f => exact rfl
      | ok a => exact hrun
    exact hsettled.course hsettle
  have hperform := hooks_of_silent ((Attempt.onlyTells_perform h k _).course hperform)
  have hsettle := hooks_of_silent (hsilent.course hsettle)
  refine ⟨?_, hlinter⟩
  show hooks (started k.linter :: Job.events (ss₁ ++ (ss₃ ++ [_]))) = _
  rw [Job.events_append, Job.events_append]
  show started k.linter :: hooks _ = _
  rw [hooks_append, hooks_append, hperform, hsettle]
  rfl

/-- What is told of a linter in a shuffle of two parts. -/
theorem shuffle_about {ss₁ ss₂ : List (Job.Step Event)} (hss : Shuffle ss₁ ss₂ ss) (l : Linter) :
    Shuffle (about l (Job.events ss₁)) (about l (Job.events ss₂)) (about l (Job.events ss)) := by
  simp only [about, ← List.filterMap_eq_filter]
  exact (hss.filterMap _).filterMap _

/-- **Attempts side by side**: of each linter is told that it is started and finished with the run
that its attempt comes to, and of no other linter is anything told. The induction is on the tools,
of which the first takes its steps among those of the others. -/
theorem about_attempts (hts : (ts.map (·.linter)).Nodup)
    (hss : Crew.Course r (ts.map (attempt h o)) ss as) :
    (∀ l ∉ ts.map (·.linter),
        about l (Job.events ss) = [] ∧ (as.map (·.run)).filter (·.linter = l) = []) ∧
      ∀ l ∈ ts.map (·.linter), ∃ run, run.linter = l ∧
        about l (Job.events ss) = [started l, finished run] ∧
        (as.map (·.run)).filter (·.linter = l) = [run] := by
  induction ts generalizing ss as with
  | nil =>
    obtain ⟨rfl, rfl⟩ := Crew.course_nil.1 hss
    exact ⟨fun _ _ => ⟨rfl, rfl⟩, fun _ hl => absurd hl List.not_mem_nil⟩
  | cons k ts ih =>
    rw [List.map_cons] at hts ⊢
    obtain ⟨hk, hts⟩ := List.nodup_cons.1 hts
    obtain ⟨ss₁, ss₂, a, as, rfl, hshuffle, hattempt, hrest⟩ := Crew.course_cons.1 hss
    obtain ⟨hothers, heach⟩ := ih hts hrest
    obtain ⟨hhooks, hrun⟩ := hooks_attempt hattempt
    have hskip (l : Linter) (hl : l ≠ k.linter) :
        about l (Job.events ss) = about l (Job.events ss₂) ∧
          ((a :: as).map (·.run)).filter (·.linter = l) = (as.map (·.run)).filter (·.linter = l) := by
      have hnone : about l (Job.events ss₁) = [] := by
        rw [about_of_hooks hhooks]
        simp [about, linter?, hrun, Ne.symm hl]
      have habout := shuffle_about hshuffle l
      rw [hnone, Shuffle.nil_left_iff] at habout
      rw [List.map_cons, List.filter_cons_of_neg (by simp [hrun, Ne.symm hl])]
      exact ⟨habout, rfl⟩
    refine ⟨fun l hl => ?_, fun l hl => ?_⟩
    · rw [List.mem_cons, not_or] at hl
      rw [(hskip l hl.1).1, (hskip l hl.1).2]
      exact hothers l hl.2
    · by_cases hlk : l = k.linter
      · subst hlk
        have habout := shuffle_about hshuffle k.linter
        rw [(hothers k.linter hk).1, Shuffle.nil_right_iff, about_of_hooks hhooks] at habout
        refine ⟨a.run, hrun, habout.trans ?_, ?_⟩
        · simp [about, linter?, hrun]
        · rw [List.map_cons, List.filter_cons_of_pos (by simp [hrun]), (hothers k.linter hk).2]
      · rw [(hskip l hlk).1, (hskip l hlk).2]
        exact heach l ((List.mem_cons.1 hl).resolve_left hlk)

/-- What is told of the linters that a batch asks for, up to its result. -/
structure Announced (ls : List Linter) (es : List Event) (res : Result) : Prop where
  /-- a linter is skipped, and then it has no run; or it is started and then finished, with the one
  run that the report has for it -/
  each : ∀ l ∈ ls,
    (about l es = [skipped l] ∧ ∀ rep, res = .ok rep → rep.linters.filter (·.linter = l) = []) ∨
      ∃ run, run.linter = l ∧ about l es = [started l, finished run] ∧
        ∀ rep, res = .ok rep → rep.linters.filter (·.linter = l) = [run]
  /-- no other linter is told of -/
  others : ∀ l ∉ ls, about l es = []
  /-- those that are skipped come first, in the order of the request -/
  skips : ∃ (early : List Linter) (later : List Event), hooks es = early.map skipped ++ later ∧
    early.Sublist ls ∧ ∀ l, skipped l ∉ later

/-- **What a schedule over some files tells of linters**: the selection comes first, then the attempts. -/
theorem hooks_of_goes {res : Result} (hfiles : o.files ≠ [])
    (hg : Goes h t o r (initial h t o ts) ss (.concluding flags (.done res))) :
    flags.length = ts.length ∧ ∃ ss' as,
      hooks (Job.events ss) =
        (unanswered (ts.map (·.linter)) flags).map skipped ++ hooks (Job.events ss') ∧
      Crew.Course r ((answered ts flags).map (attempt h o)) ss' as ∧ res = report h t o as := by
  obtain ⟨ss₁, ss₂, ss₃, as, rfl, hprobes, hselect, hattempts, rfl⟩ := ends_of_goes_initial hfiles hg
  have hlength : flags.length = ts.length := by
    rw [← (Crew.mayEnd_of_course hprobes).length_eq, List.length_map]
  have hsilent : hooks (Job.events ss₁) = [] := by
    refine hooks_of_silent (Crew.events_of_course (fun j hj => ?_) hprobes)
    obtain ⟨k, -, rfl⟩ := List.mem_map.1 hj
    exact onlyTells_probe h o k
  refine ⟨hlength, ss₃, as, ?_, hattempts, rfl⟩
  rw [Job.events_append, Job.events_append, hooks_append, hooks_append, hsilent, hooks_select hselect,
    ← unanswered, List.nil_append, unanswered_map, List.map_map]
  rfl

/-- **A batch over some files tells of its linters.** -/
theorem announced_of_goes {res : Result} (hfiles : o.files ≠ []) (hts : (ts.map (·.linter)).Nodup)
    (hg : Goes h t o r (initial h t o ts) ss (.concluding flags (.done res))) :
    Announced (ts.map (·.linter)) (Job.events ss) res := by
  obtain ⟨hlength, ss', as, hhooks, hattempts, rfl⟩ := hooks_of_goes hfiles hg
  have hlength : flags.length = (ts.map (·.linter)).length := by rw [hlength, List.length_map]
  generalize hls : ts.map (·.linter) = ls at *
  have hperm := perm_answered hlength
  obtain ⟨hanswered, hunanswered, hdisjoint⟩ := List.nodup_append.1 (hperm.nodup_iff.2 hts)
  have hmap : (answered ts flags).map (·.linter) = answered ls flags := by rw [← answered_map, hls]
  obtain ⟨hothers, heach⟩ := about_attempts (hmap ▸ hanswered) hattempts
  rw [hmap] at hothers heach
  have hlinters {rep : Report} (hrep : report h t o as = .ok rep) : rep.linters = as.map (·.run) := by
    obtain ⟨-, rfl⟩ := report_eq_ok_iff.1 hrep
    rfl
  -- of a linter is told by the selection and by the attempts
  have habout (l : Linter) : about l (Job.events ss) =
      (if l ∈ unanswered ls flags then [skipped l] else []) ++ about l (Job.events ss') := by
    rw [about_of_hooks hhooks, about_append, about_skipped hunanswered, about_hooks]
  refine ⟨fun l hl => ?_, fun l hl => ?_, unanswered ls flags, hooks (Job.events ss'), hhooks,
    unanswered_sublist hlength, fun l hmem => ?_⟩
  · rcases List.mem_append.1 (hperm.mem_iff.2 hl) with hin | hout
    · obtain ⟨run, hrun, htold, hone⟩ := heach l hin
      refine .inr ⟨run, hrun, ?_, fun rep hrep => ?_⟩
      · rw [habout, if_neg fun hout => hdisjoint l hin l hout rfl, List.nil_append, htold]
      · rw [hlinters hrep, hone]
    · have hnot : l ∉ answered ls flags := fun hin => hdisjoint l hin l hout rfl
      refine .inl ⟨?_, fun rep hrep => ?_⟩
      · rw [habout, if_pos hout, (hothers l hnot).1, List.append_nil]
      · rw [hlinters hrep, (hothers l hnot).2]
  · have hnot : l ∉ answered ls flags ++ unanswered ls flags := mt hperm.mem_iff.1 hl
    rw [List.mem_append, not_or] at hnot
    rw [habout, if_neg hnot.2, List.nil_append, (hothers l hnot.1).1]
  · have hin : skipped l ∈ about l (Job.events ss') := by
      rw [← about_hooks]
      exact List.mem_filter.2 ⟨hmem, by simp [linter?]⟩
    by_cases hl : l ∈ answered ls flags
    · obtain ⟨run, -, htold, -⟩ := heach l hl
      simp [htold] at hin
    · rw [(hothers l hl).1] at hin
      cases hin

/-- A batch over some files comes to a report, unless the tool of one of its linters may find an issue
that cannot be sorted. -/
theorem unsortable_of_goes {fault : Issue.Unsortable} (hfiles : o.files ≠ [])
    (hg : Goes h t o r (initial h t o ts) ss (.concluding flags (.done (.error fault)))) :
    ∃ k ∈ ts, ∃ a, (attempt h o k).MayEnd r a ∧ ∃ i ∈ a.issues, i.hasKeys h.collation = false := by
  obtain ⟨_, _, _, as, -, -, -, hattempts, hreport⟩ := ends_of_goes_initial hfiles hg
  have hends := List.forall₂_map_left_iff.1 (Crew.mayEnd_of_course hattempts)
  have hkeys : ¬ ∀ i ∈ as.flatMap (·.issues), i.hasKeys h.collation = true := fun hall => by
    cases hreport.trans (report_eq_ok_iff.2 ⟨hall, rfl⟩)
  simp only [List.mem_flatMap, not_forall, Bool.not_eq_true] at hkeys
  obtain ⟨i, ⟨a, ha, hi⟩, hkey⟩ := hkeys
  obtain ⟨k, hk, hend⟩ := exists_of_forall₂ hends.flip ha
  exact ⟨k, (answered_sublist ts flags).subset hk, a, hend, i, hi, hkey⟩

/-- **What is told of the linters of a batch.** Whatever the programs answer, and whatever tools are
registered, a batch of registered linters starts, every schedule of it comes to an end, and at the end
of each schedule over some files every linter that was asked for has been announced; there is a report
then, unless an issue that the tool of such a linter found cannot be sorted. Without files no linter
is told of, and no program is run. -/
theorem announced_of_start (h : Host) (reg : Registry) (t : Stamp) (o : Options) (r : Runner)
    (hr : r.Total) (hreg : ∀ l ∈ o.linters, l ∈ reg.orBuiltin.linters) :
    ∃ p, start h reg t o = .ok p ∧ Inevitably h t o r (fun _ _ => True) p ∧
      ∀ ss flags res, Goes h t o r p ss (.concluding flags (.done res)) →
        (o.files ≠ [] → Announced o.linters (Job.events ss) res ∧
          ∀ fault, res = .error fault → ∃ k ∈ reg.orBuiltin.tools, k.linter ∈ o.linters ∧
            ∃ a, (attempt h o k).MayEnd r a ∧ ∃ i ∈ a.issues, i.hasKeys h.collation = false) ∧
        (o.files = [] → hooks (Job.events ss) = [] ∧ Job.calls ss = []) := by
  have hends (p : Phase) : Inevitably h t o r (fun _ _ => True) p :=
    inevitably_of_invariant hr (I := fun _ => True) (fun _ _ _ _ _ => trivial) (fun _ _ _ => trivial) p
      trivial
  by_cases hfiles : o.files = []
  · refine ⟨initial h t o [], start_of_nothing h reg t hfiles, hends _,
      fun ss flags res hg => ⟨absurd hfiles, fun _ => ?_⟩⟩
    obtain ⟨rfl, -⟩ := ends_of_goes_initial_nothing hfiles hg
    exact ⟨rfl, rfl⟩
  · obtain ⟨p, hp⟩ : ∃ p, start h reg t o = .ok p := by
      cases hstart : start h reg t o with
      | ok p => exact ⟨p, rfl⟩
      | error name =>
        obtain ⟨l, hl, hnot⟩ := (start_eq_error_iff h reg t hfiles).1 ⟨name, hstart⟩
        exact absurd (hreg l hl) hnot
    obtain ⟨ts, rfl, hlinters, hts⟩ := of_start_eq_ok hfiles hp
    refine ⟨_, hp, hends _, fun ss flags res hg => ⟨fun _ => ⟨?_, ?_⟩, (absurd · hfiles)⟩⟩
    · rw [← hlinters]
      exact announced_of_goes hfiles (hlinters ▸ o.nodup) hg
    · rintro fault rfl
      obtain ⟨k, hk, hfound⟩ := unsortable_of_goes hfiles hg
      exact ⟨k, hts k hk, hlinters ▸ List.mem_map_of_mem hk, hfound⟩

/-- The conditions in `announced_of_start` are met: some schedule announces the three linters of the
samples, and none is told of without files. -/
theorem announced_of_start_idle :
    (Runner.exactly Sample.idle).Total ∧
      (∀ l ∈ Sample.options.linters, l ∈ Registry.builtin.orBuiltin.linters) ∧
      (∃ p ss flags res, start (Sample.host .codePoints) .builtin default Sample.options = .ok p ∧
        Goes (Sample.host .codePoints) default Sample.options (.exactly Sample.idle) p ss
          (.concluding flags (.done res)) ∧
        Sample.options.files ≠ [] ∧ Announced Sample.options.linters (Job.events ss) res) ∧
      ∃ p ss flags res,
        start (Sample.host .codePoints) .builtin default { Sample.options with files := [] } = .ok p ∧
        Goes (Sample.host .codePoints) default { Sample.options with files := [] }
          (.exactly Sample.idle) p ss (.concluding flags (.done res)) ∧
        hooks (Job.events ss) = [] ∧ Job.calls ss = [] := by
  have htotal := Runner.total_exactly Sample.idle
  have hreg : ∀ l ∈ Sample.options.linters, l ∈ Registry.builtin.orBuiltin.linters := by decide
  have hfiles : Sample.options.files ≠ [] := by decide
  obtain ⟨p, hp, -, hsome⟩ :=
    announced_of_start (Sample.host .codePoints) .builtin default Sample.options _ htotal hreg
  obtain ⟨p', hp', -, hnone⟩ :=
    announced_of_start (Sample.host .codePoints) .builtin default { Sample.options with files := [] } _
      htotal hreg
  obtain ⟨ss, flags, res, hg⟩ := exists_goes (Sample.host .codePoints) default Sample.options htotal p
  obtain ⟨ss', flags', res', hg'⟩ :=
    exists_goes (Sample.host .codePoints) default { Sample.options with files := [] } htotal p'
  exact ⟨htotal, hreg, ⟨p, ss, flags, res, hp, hg, hfiles, ((hsome ss flags res hg).1 hfiles).1⟩,
    p', ss', flags', res', hp', hg', (hnone ss' flags' res' hg').2 rfl⟩

end Batch
end LintMerge
