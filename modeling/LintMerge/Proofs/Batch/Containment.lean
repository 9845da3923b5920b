/-
# Faults are contained

Whatever programs answer, and in whatever order the workers of a batch take turns, the
batch ends with a report: no fault of a linter leaves its attempt. The report is in order
(`Report.WellFormed`): it has one run for each linter that answered its probe, a run that
failed says why and has contributed nothing, and every issue comes from a run that
succeeded.

The attempts are sound one by one (`Batch.ensures_attempt`), every schedule ends with the
report of such attempts (`Batch.inevitably_report`), and a report of sound attempts is in
order (`wellFormed_report`). Only the order of the issues could still fail, so it is
assumed that texts are compared by code points.
-/

import Mathlib.Data.List.Nodup
import LintMerge.Proofs.Batch.Schedule
import LintMerge.Proofs.Issue.Sorting
import LintMerge.Proofs.Linter.Soundness

namespace LintMerge

namespace Registry

/-- A registered tool is found by the name of its linter, which no other tool has. -/
theorem get?_name {reg : Registry} {k : Tool} (hk : k ∈ reg.tools) :
    reg.get? k.linter.name = some k := by
  cases h : reg.get? k.linter.name with
  | none =>
    have hall := List.find?_eq_none.1 h k hk
    simp at hall
  | some k' =>
    have hname := congrArg Linter.ofName? (name_of_get? h)
    rw [Linter.ofName?_name, Linter.ofName?_name] at hname
    have hsame : k' = k :=
      List.inj_on_of_nodup_map reg.nodup (mem_of_get? h) hk (Option.some.inj hname)
    rw [hsame]

/-- The tool of every linter that is built in is in the registry of them all. -/
theorem mem_builtin (l : Linter) : l.tool ∈ builtin.tools := List.mem_map_of_mem l.mem_all

/-- Registered tools are picked by the names of their linters. -/
theorem pick_names {reg : Registry} {ts : List Tool} (hts : ∀ k ∈ ts, k ∈ reg.tools) :
    reg.pick (ts.map (·.linter.name)) = .ok ts := by
  refine Faulty.mapM_eq_ok.2 ?_
  induction ts with
  | nil => exact .nil
  | cons k rest ih =>
    refine .cons ?_ (ih fun k' hk' => hts k' (List.mem_cons_of_mem _ hk'))
    rw [get?_name (hts k List.mem_cons_self)]

end Registry

/-- A report is in order, of which linters were asked for, and some answered, to process some
number of files. -/
structure Report.WellFormed (ls : List Linter) (flags : List Bool) (count : Nat) (rep : Report) :
    Prop where
  /-- one run for each linter that answered, in the order of the request -/
  runs : rep.linters.map (·.linter) = Batch.answered ls flags
  once : (rep.linters.map (·.linter)).Nodup
  failed : ∀ run ∈ rep.linters, run.success = false →
    (∃ e, run.error = some e ∧ e ≠ "") ∧ run.filesProcessed = 0 ∧
      ∀ i ∈ rep.issues, i.source ≠ run.linter
  succeeded : ∀ run ∈ rep.linters, run.success = true →
    run.error = none ∧ run.filesProcessed = count
  sources : ∀ i ∈ rep.issues, ∃ run ∈ rep.linters, run.linter = i.source ∧ run.success = true
  rules : ∀ i ∈ rep.issues, ∃ rule, rule ≠ "" ∧ i.ruleId = i.source.name ++ "/" ++ rule
  paths : ∀ i ∈ rep.issues, i.path ≠ "" ∧ i.path.toList.head? ≠ some '/'
  spans : ∀ i ∈ rep.issues, 1 ≤ i.span.line ∧ i.span.line ≤ i.span.endLine ∧
    (i.span.line = i.span.endLine → i.span.column ≤ i.span.endColumn)

namespace Issue

/-- The path of an issue is relative and not empty, as the record demands. -/
theorem path_relative (i : Issue) : i.path ≠ "" ∧ i.path.toList.head? ≠ some '/' :=
  ⟨i.isPath.1, of_decide_eq_false i.isPath.2⟩

/-- The span of an issue runs forward, as the record demands. -/
theorem span_forward (i : Issue) : 1 ≤ i.span.line ∧ i.span.line ≤ i.span.endLine ∧
    (i.span.line = i.span.endLine → i.span.column ≤ i.span.endColumn) := by
  have hline := i.span.one_le_line
  have hordered := i.span.ordered
  exact ⟨hline, by omega, by omega⟩

end Issue

namespace Batch

variable {h : Host} {t : Stamp} {o : Options} {r : Runner}

/-- Attempts that are sound, of linters in a row. -/
theorem map_linter_of_sound {ls : List Linter} {count : Nat} {as : List Attempt}
    (has : List.Forall₂ (fun l a => Attempt.Sound l count a) ls as) :
    as.map (·.run.linter) = ls := by
  induction has with
  | nil => rfl
  | cons ha _ ih => rw [List.map_cons, ha.linter, ih]

/-- A sound attempt is one of a linter that it names. -/
theorem sound_of_mem {ls : List Linter} {count : Nat} {as : List Attempt}
    (has : List.Forall₂ (fun l a => Attempt.Sound l count a) ls as) {a : Attempt} (ha : a ∈ as) :
    a.Sound a.run.linter count := by
  induction has with
  | nil => exact absurd ha List.not_mem_nil
  | cons hb _ ih =>
    rcases List.mem_cons.1 ha with rfl | ha
    · exact hb.linter ▸ hb
    · exact ih ha

/-- The report of attempts holds their runs and their issues in order, and there is one exactly
when all issues have their keys. -/
theorem report_eq_ok_iff {as : List Attempt} {rep : Report} : report h t o as = .ok rep ↔
    (∀ i ∈ as.flatMap (·.issues), i.hasKeys h.collation = true) ∧
      rep = { timestamp := t, cwd := o.cwd.text, durationMs := 0, linters := as.map (·.run),
              issues := Issue.sort h.collation (as.flatMap (·.issues)) } := by
  rw [report]
  cases hs : Issue.sorted h.collation (as.flatMap (·.issues)) with
  | error e =>
    constructor
    · intro hrep
      cases hrep
    · rintro ⟨hkeys, -⟩
      rw [Issue.sorted_eq_ok_iff.2 ⟨hkeys, rfl⟩] at hs
      cases hs
  | ok issues =>
    obtain ⟨hkeys, rfl⟩ := Issue.sorted_eq_ok_iff.1 hs
    constructor
    · intro hrep
      exact ⟨hkeys, (Except.ok.inj hrep).symm⟩
    · rintro ⟨-, rfl⟩
      rfl

/-- **A report of sound attempts is in order.** No linter has two attempts, so an issue of a
linter is an issue of its one attempt, and a failed attempt has none. -/
theorem wellFormed_report {ls : List Linter} {flags : List Bool} {count : Nat}
    {as : List Attempt} {rep : Report} (hls : ls.Nodup)
    (has : List.Forall₂ (fun l a => Attempt.Sound l count a) (answered ls flags) as)
    (hrep : report h t o as = .ok rep) : rep.WellFormed ls flags count := by
  have hlinters : as.map (·.run.linter) = answered ls flags := map_linter_of_sound has
  have hnodup : (as.map (·.run.linter)).Nodup := hlinters ▸ (answered_sublist ls flags).nodup hls
  have hsound : ∀ a ∈ as, a.Sound a.run.linter count := fun a ha => sound_of_mem has ha
  obtain ⟨-, rfl⟩ := report_eq_ok_iff.1 hrep
  -- an issue of the report is an issue of an attempt, which succeeded
  have horigin : ∀ i ∈ Issue.sort h.collation (as.flatMap (·.issues)), ∃ a ∈ as, i ∈ a.issues ∧
      i.FoundBy a.run.linter ∧ a.run.success = true := by
    intro i hi
    rw [Issue.mem_sort, List.mem_flatMap] at hi
    obtain ⟨a, ha, hia⟩ := hi
    refine ⟨a, ha, hia, (hsound a ha).found i hia, ?_⟩
    by_contra hfail
    have hnone := ((hsound a ha).failed (Bool.not_eq_true _ ▸ hfail)).2.2
    rw [hnone] at hia
    exact absurd hia List.not_mem_nil
  refine ⟨?_, ?_, ?_, ?_, ?_, ?_, fun i _ => i.path_relative, fun i _ => i.span_forward⟩
  · rw [List.map_map]
    exact hlinters
  · rw [List.map_map]
    exact hnodup
  · intro run hrun hfail
    obtain ⟨a, ha, rfl⟩ := List.mem_map.1 hrun
    obtain ⟨herror, hcount, -⟩ := (hsound a ha).failed hfail
    refine ⟨herror, hcount, fun i hi hsource => ?_⟩
    obtain ⟨b, hb, -, hfound, hsuccess⟩ := horigin i hi
    have hba : b = a := List.inj_on_of_nodup_map hnodup hb ha (hfound.1.symm.trans hsource)
    rw [hba, hfail] at hsuccess
    cases hsuccess
  · intro run hrun hsuccess
    obtain ⟨a, ha, rfl⟩ := List.mem_map.1 hrun
    exact (hsound a ha).succeeded hsuccess
  · intro i hi
    obtain ⟨a, ha, -, hfound, hsuccess⟩ := horigin i hi
    exact ⟨a.run, List.mem_map_of_mem ha, hfound.1.symm, hsuccess⟩
  · intro i hi
    obtain ⟨a, -, -, ⟨hsource, rule, hne, hrule⟩, -⟩ := horigin i hi
    exact ⟨rule, hne, hsource ▸ hrule⟩

/-- Where all texts have keys, attempts have a report. -/
theorem exists_report (hc : h.collation = .codePoints) (as : List Attempt) :
    ∃ rep, report h t o as = .ok rep := by
  refine ⟨_, report_eq_ok_iff.2 ⟨fun i _ => ?_, rfl⟩⟩
  rw [hc]
  exact i.hasKeys_codePoints

/-- How the probes of a batch ended: each in one of the ways in which it may, and without files
there was none. -/
def Probed (h : Host) (o : Options) (r : Runner) (flags : List Bool) : Prop :=
  if o.files = [] then flags = []
  else List.Forall₂ (fun (l : Linter) b => (probe h o l).MayEnd r b) o.linters flags

/-- A batch starts out with the built-in tools of its linters where a registry holds them. -/
theorem start_of_builtin {reg : Registry} (hfiles : o.files ≠ [])
    (hreg : ∀ l ∈ o.linters, l.tool ∈ reg.orBuiltin.tools) :
    start h reg t o = .ok (initial h t o o.tools) := by
  have hts : ∀ k ∈ o.tools, k ∈ reg.orBuiltin.tools := by
    intro k hk
    obtain ⟨l, hl, rfl⟩ := List.mem_map.1 hk
    exact hreg l hl
  have hpick : reg.orBuiltin.pick (o.linters.map Linter.name) = .ok o.tools := by
    rw [← Registry.pick_names hts, Options.tools, List.map_map]
    rfl
  rw [start, chosen, if_neg (by simpa using hfiles), hpick]
  rfl

/-- Without files a batch starts out with no tool. -/
theorem start_of_nothing (h : Host) (reg : Registry) (t : Stamp) (hfiles : o.files = []) :
    start h reg t o = .ok (initial h t o []) := by
  rw [start, chosen, if_pos (by simpa using hfiles)]
  rfl

/-- **Fault containment.** A batch of registered linters starts, and whatever programs answer
and whoever takes his turn, it ends with a report that is in order. -/
theorem inevitably_wellFormed (h : Host) (reg : Registry) (t : Stamp) (o : Options) (r : Runner)
    (hr : r.Total) (hc : h.collation = .codePoints)
    (hreg : ∀ l ∈ o.linters, l.tool ∈ reg.orBuiltin.tools) :
    ∃ p, start h reg t o = .ok p ∧
      Inevitably h t o r (fun flags res => Probed h o r flags ∧
        ∃ rep, res = .ok rep ∧ rep.WellFormed o.linters flags o.files.length) p := by
  by_cases hfiles : o.files = []
  · refine ⟨initial h t o [], start_of_nothing h reg t hfiles, ?_⟩
    refine (inevitably_report_nothing hr hfiles []).mono ?_
    rintro flags res ⟨rfl, rfl⟩
    obtain ⟨rep, hrep⟩ := exists_report (t := t) (o := o) hc []
    have hnone : answered o.linters [] = [] := by simp [answered]
    rw [Probed, if_pos hfiles]
    exact ⟨rfl, rep, hrep, wellFormed_report o.nodup (hnone ▸ .nil) hrep⟩
  · refine ⟨initial h t o o.tools, start_of_builtin hfiles hreg, ?_⟩
    refine (inevitably_report hr hfiles (fun k _ => Job.ensures_mayEnd (probe h o k))
      (ensures_attempts h o)).mono ?_
    rintro flags res ⟨hflags, as, has, rfl⟩
    obtain ⟨rep, hrep⟩ := exists_report (t := t) (o := o) hc as
    rw [Options.tools, List.forall₂_map_left_iff] at hflags
    rw [Options.tools, answered_map, List.forall₂_map_left_iff] at has
    rw [Probed, if_neg hfiles]
    exact ⟨hflags, rep, hrep, wellFormed_report o.nodup has hrep⟩

namespace Sample

/-- A host on whose search path the programs of two linters lie. -/
def host (c : Collation) : Host where
  tree := ⟨.folder [("bin", .folder [("eslint", .file [] true), ("tsc", .file [] true)])]⟩
  searchPath := ["/bin"]
  collation := c

/-- A batch of three linters over one file. -/
def options : Options where
  cwd := ⟨1, ["project"]⟩
  linters := [.tsc, .oxlint, .eslint]
  files := [⟨1, ["project", "a.ts"]⟩]

/-- Programs that do nothing. -/
def idle : Call → Answer := fun _ => .ok {}

end Sample

/-- The hypotheses of `inevitably_wellFormed` hold together: two of three linters are there, and
their programs answer every call in one way. -/
theorem inevitably_wellFormed_idle :
    (Runner.exactly Sample.idle).Total ∧ (Sample.host .codePoints).collation = .codePoints ∧
      (∀ l ∈ Sample.options.linters, l.tool ∈ Registry.builtin.orBuiltin.tools) ∧
      ∃ p, start (Sample.host .codePoints) .builtin default Sample.options = .ok p ∧
        Inevitably (Sample.host .codePoints) default Sample.options (.exactly Sample.idle)
          (fun flags res =>
            Probed (Sample.host .codePoints) Sample.options (.exactly Sample.idle) flags ∧
            ∃ rep, res = .ok rep ∧ rep.WellFormed Sample.options.linters flags 1) p :=
  have hreg := fun l (_ : l ∈ Sample.options.linters) => Registry.mem_builtin l
  ⟨Runner.total_exactly _, rfl, hreg,
    inevitably_wellFormed _ _ _ _ _ (Runner.total_exactly _) rfl hreg⟩

end Batch
end LintMerge
