/-
# Summaries count

A report that comes from outside brings a summary along, which may say anything. The parts of a
report are checked one by one (`Report.Told`); then the summary has to count the issues, each kind
of them and those that have something to replace (`Summary.Counts`). There is one summary that
does (`Summary.counts_iff`), so a report is accepted with this one and refused with every other
(`Report.check_eq_ok_iff`, `Report.check_of_miscount`), and a summary that is left out, which is
read as zeros, is accepted where there are no issues.

A report that is assembled of its issues has the one that counts them (`Report.assemble_eq_ok_iff`).
-/

import LintMerge.Proofs.Check.Outcome
import LintMerge.Proofs.Json.Documents
import LintMerge.Report.Wire

namespace LintMerge

/-- What an issue offers to replace. -/
def Issue.replacements (i : Issue) : List Replacement := (i.fix.map (·.replacements)).getD []

theorem Issue.fixable_iff {i : Issue} : i.fixable = true ↔ i.replacements ≠ [] := by
  rw [fixable, replacements]
  cases i.fix with
  | none => simp
  | some f => simp

namespace Summary

variable {s : Summary} {issues more : List Issue}

/-- A summary counts some issues: all of them, those of each severity, and those that offer
something to replace. -/
structure Counts (s : Summary) (issues : List Issue) : Prop where
  total : s.total = issues.length
  errors : s.errors = (issues.filter (·.severity = .error)).length
  warnings : s.warnings = (issues.filter (·.severity = .warning)).length
  info : s.info = (issues.filter (·.severity = .info)).length
  /-- the severities are all there are -/
  severities : s.errors + s.warnings + s.info = s.total
  fixable : s.fixable = (issues.filter (·.replacements ≠ [])).length
  fixable_le : s.fixable ≤ s.total

/-- Every issue is of one severity. -/
theorem severities_ofIssues (issues : List Issue) :
    (ofIssues issues).errors + (ofIssues issues).warnings + (ofIssues issues).info = issues.length := by
  induction issues with
  | nil => rfl
  | cons i issues ih =>
    simp only [ofIssues, List.countP_cons, List.length_cons] at ih ⊢
    cases i.severity <;> simp <;> omega

theorem counts_ofIssues (issues : List Issue) : (ofIssues issues).Counts issues where
  total := rfl
  errors := List.countP_eq_length_filter
  warnings := List.countP_eq_length_filter
  info := List.countP_eq_length_filter
  severities := severities_ofIssues issues
  fixable := by
    rw [← List.countP_eq_length_filter]
    exact List.countP_congr fun i _ => by rw [Issue.fixable_iff, decide_eq_true_iff]
  fixable_le := List.countP_le_length

/-- **One summary counts the issues.** -/
theorem counts_iff : s.Counts issues ↔ s = ofIssues issues := by
  constructor
  · intro h
    have hof := counts_ofIssues issues
    obtain ⟨total, errors, warnings, info, fixable⟩ := s
    exact Summary.mk.injEq .. ▸ ⟨h.total.trans hof.total.symm, h.errors.trans hof.errors.symm,
      h.warnings.trans hof.warnings.symm, h.info.trans hof.info.symm, h.fixable.trans hof.fixable.symm⟩
  · rintro rfl
    exact counts_ofIssues issues

instance : Add Summary where
  add s t := ⟨s.total + t.total, s.errors + t.errors, s.warnings + t.warnings, s.info + t.info,
    s.fixable + t.fixable⟩

theorem ofIssues_append (issues more : List Issue) :
    ofIssues (issues ++ more) = ofIssues issues + ofIssues more := by
  rw [ofIssues, List.length_append, List.countP_append, List.countP_append, List.countP_append,
    List.countP_append]
  rfl

theorem ofIssues_of_perm (h : issues.Perm more) : ofIssues issues = ofIssues more := by
  rw [ofIssues, h.length_eq, h.countP_eq, h.countP_eq, h.countP_eq, h.countP_eq]
  rfl

end Summary

namespace Report

variable {form : Check.Form} {es : List (String × Value)} {r r' : Report} {s : Summary}

/-- The entries of a record tell the parts of a report and a summary: each of them passes its check. -/
structure Told (form : Check.Form) (es : List (String × Value)) (r : Report) (s : Summary) : Prop where
  timestamp : Check.required es (.plain "timestamp") Stamp.check = .ok r.timestamp
  cwd : Check.required es (.plain "cwd") Check.text = .ok r.cwd
  duration : Check.defaulted es ⟨"durationMs", "duration_ms"⟩ ⟨0, Nat.le_refl 0⟩ (Check.atLeast 0) =
    .ok ⟨r.durationMs, Nat.zero_le _⟩
  linters : Check.defaulted es (.plain "linters") [] (Check.sequence form (LinterRun.check form)) =
    .ok r.linters
  issues : Check.defaulted es (.plain "issues") [] (Check.sequence form (Issue.check form)) = .ok r.issues
  summary : Check.defaulted es (.plain "summary") {} (Summary.check form) = .ok s

/-- A summary that is left out is read as zeros. -/
theorem Told.summary_of_absent (h : Told form es r s) (habsent : Value.lookup "summary" es = none) :
    s = ⟨0, 0, 0, 0, 0⟩ := by
  rcases Check.defaulted_plain_eq_ok.1 h.summary with ⟨-, hs⟩ | ⟨v, hv, -⟩
  · exact hs.symm
  · rw [habsent] at hv
    cases hv

/-- What is said of a report with another summary than the one that counts its issues. -/
def miscount (r : Report) (s : Summary) : Check.Problem :=
  .broken s!"summary {s.toValue.shown} does not match issues {r.summary.toValue.shown}"

theorem withSummary_eq_ok_iff : r.withSummary s = .ok r' ↔ r' = r ∧ s.Counts r.issues := by
  rw [withSummary, Summary.counts_iff, summary, and_comm]
  split
  · next h => rw [Checked.ok.injEq, eq_comm, and_iff_right h]
  · next h => simp [h]

theorem withSummary_of_miscount (h : ¬ s.Counts r.issues) : r.withSummary s = .refuse (r.miscount s) := by
  have hne : s ≠ r.summary := fun heq => h (Summary.counts_iff.2 heq)
  rw [withSummary, if_neg hne, miscount]

/-- When all parts pass their checks, the summary decides. -/
theorem Told.check_eq (h : Told form es r s) : check form (.table es) = r.withSummary s := by
  rw [check, Check.record]
  dsimp only
  rw [h.timestamp, h.cwd, h.duration, h.linters, h.issues, h.summary]
  rfl

/-- **A report is accepted** when each part passes its check and the summary counts the issues. -/
theorem check_eq_ok_iff {v : Value} : check form v = .ok r ↔
    ∃ es s, v = .table es ∧ Told form es r s ∧ s.Counts r.issues := by
  constructor
  · intro h
    cases v with
    | table es =>
      rw [check, Check.record] at h
      dsimp only at h
      simp only [Checked.andThen_eq_ok, Checked.seq_eq_ok, Checked.map_eq_ok] at h
      obtain ⟨⟨_, _⟩, ⟨_, s, ⟨_, _, ⟨_, _, ⟨_, _, ⟨_, _, ⟨_, ht, rfl⟩, hc, rfl⟩, hd, rfl⟩, hl, rfl⟩, hi,
        rfl⟩, hs, heq⟩, h⟩ := h
      obtain ⟨rfl, rfl⟩ := Prod.mk.inj heq
      obtain ⟨rfl, hcounts⟩ := withSummary_eq_ok_iff.1 h
      exact ⟨es, s, rfl, ⟨ht, hc, hd, hl, hi, hs⟩, hcounts⟩
    | _ => cases h
  · rintro ⟨es, s, rfl, htold, hcounts⟩
    rw [htold.check_eq, withSummary_eq_ok_iff]
    exact ⟨rfl, hcounts⟩

/-- **A report is refused** with another summary than the one that counts its issues. -/
theorem check_of_miscount (h : Told form es r s) (hs : ¬ s.Counts r.issues) :
    check form (.table es) = .refuse (r.miscount s) := by
  rw [h.check_eq, withSummary_of_miscount hs]

/-- What a text holds. -/
theorem read_of_document {text : String} {v : Value} (h : Json.Strict.document text.toList = .ok v) :
    read text = check .json v := by
  rw [read, h]

theorem read_eq_ok_iff {text : String} : read text = .ok r ↔
    ∃ es s, Json.Strict.document text.toList = .ok (.table es) ∧ Told .json es r s ∧ s.Counts r.issues := by
  constructor
  · intro h
    cases hdocument : Json.Strict.document text.toList with
    | error f =>
      rw [read, hdocument] at h
      cases h
    | ok v =>
      rw [read_of_document hdocument] at h
      obtain ⟨es, s, rfl, htold, hcounts⟩ := check_eq_ok_iff.1 h
      exact ⟨es, s, rfl, htold, hcounts⟩
  · rintro ⟨es, s, hdocument, htold, hcounts⟩
    rw [read_of_document hdocument, check_eq_ok_iff]
    exact ⟨es, s, rfl, htold, hcounts⟩

/-- An assembled report is refused for its own parts, and never for its summary. -/
theorem assemble_eq_ok_iff {timestamp cwd duration : Value} {linters : List LinterRun}
    {issues : List Issue} : assemble timestamp cwd duration linters issues = .ok r ↔
      Stamp.check timestamp = .ok r.timestamp ∧ Check.text cwd = .ok r.cwd ∧
        Check.atLeast 0 duration = .ok ⟨r.durationMs, Nat.zero_le _⟩ ∧ r.linters = linters ∧
        r.issues = issues := by
  rw [assemble]
  simp only [Checked.andThen_eq_ok, Checked.seq_eq_ok, Checked.map_eq_ok, Checked.under_eq_ok,
    withSummary_eq_ok_iff]
  constructor
  · rintro ⟨_, ⟨_, d, ⟨_, c, ⟨t, ht, rfl⟩, hc, rfl⟩, hd, rfl⟩, rfl, -⟩
    exact ⟨ht, hc, hd, rfl, rfl⟩
  · rintro ⟨ht, hc, hd, rfl, rfl⟩
    exact ⟨_, ⟨_, _, ⟨_, _, ⟨_, ht, rfl⟩, hc, rfl⟩, hd, rfl⟩, rfl, Summary.counts_ofIssues _⟩

/-- **Summaries cannot drift from issues.** A report that is read from a text, made of data or made of
its parts is accepted when the summary that comes with it counts its issues, and refused with every
other one; a summary that is left out is read as zeros. An assembled report is refused for its own
parts only. So the summary of a report counts its issues however the report came about. And the
counts of two lists add up, and do not depend on the order of the issues. -/
theorem summary_counts :
    (∀ text r, read text = .ok r ↔ ∃ es s, Json.Strict.document text.toList = .ok (.table es) ∧
      Told .json es r s ∧ s.Counts r.issues) ∧
    (∀ text es r s, Json.Strict.document text.toList = .ok (.table es) → Told .json es r s →
      ¬ s.Counts r.issues → read text = .refuse (r.miscount s)) ∧
    (∀ v r, check .memory v = .ok r ↔ ∃ es s, v = .table es ∧ Told .memory es r s ∧ s.Counts r.issues) ∧
    (∀ r s r', withSummary r s = .ok r' ↔ r' = r ∧ s.Counts r.issues) ∧
    (∀ timestamp cwd duration linters issues r, assemble timestamp cwd duration linters issues = .ok r ↔
      Stamp.check timestamp = .ok r.timestamp ∧ Check.text cwd = .ok r.cwd ∧
        Check.atLeast 0 duration = .ok ⟨r.durationMs, Nat.zero_le _⟩ ∧ r.linters = linters ∧
        r.issues = issues) ∧
    (∀ form es r s, Told form es r s → Value.lookup "summary" es = none → s = ⟨0, 0, 0, 0, 0⟩) ∧
    (∀ r : Report, r.summary.Counts r.issues) ∧
    (∀ issues more, Summary.ofIssues (issues ++ more) = Summary.ofIssues issues + Summary.ofIssues more) ∧
    ∀ issues more, issues.Perm more → Summary.ofIssues issues = Summary.ofIssues more := by
  refine ⟨fun text r => read_eq_ok_iff, fun text es r s hdocument htold hs => ?_,
    fun v r => check_eq_ok_iff, fun r s r' => withSummary_eq_ok_iff,
    fun timestamp cwd duration linters issues r => assemble_eq_ok_iff,
    fun form es r s htold => htold.summary_of_absent, fun r => Summary.counts_ofIssues r.issues,
    Summary.ofIssues_append, fun issues more => Summary.ofIssues_of_perm⟩
  rw [read_of_document hdocument, check_of_miscount htold hs]

namespace Sample

/-- The entries of a report without issues that tells of one. -/
def drifted : List (String × Value) :=
  [("timestamp", .text "2025-01-02T03:04:05Z"), ("cwd", .text "/work"),
    ("summary", .table [("total", .int 1)])]

/-- What is left of it without the summary. -/
def empty : Report := ⟨⟨2025, 1, 2, 3, 4, 5, 0, some 0⟩, "/work", 0, [], []⟩

end Sample

/-- The hypotheses of `summary_counts` hold together: a text that tells of an issue and holds none is
refused. -/
theorem summary_counts_drifted :
    Json.Strict.document (Json.write .compact (.table Sample.drifted)).toList = .ok (.table Sample.drifted) ∧
      Told .json Sample.drifted Sample.empty ⟨1, 0, 0, 0, 0⟩ ∧
      ¬ (⟨1, 0, 0, 0, 0⟩ : Summary).Counts Sample.empty.issues ∧
      read (Json.write .compact (.table Sample.drifted)) =
        .refuse (Sample.empty.miscount ⟨1, 0, 0, 0, 0⟩) := by
  have hwritable : Json.Writable Json.Strict.maxDepth (.table Sample.drifted) := by
    refine .table (.inr (by decide)) (by decide) ?_
    simp only [Sample.drifted, List.forall_mem_cons]
    exact ⟨.text, .text, .table (.inr (by decide)) (by decide)
      (List.forall_mem_singleton.2 (.int (by decide))), List.forall_mem_nil _⟩
  have hdocument : Json.Strict.document (Json.write .compact (.table Sample.drifted)).toList =
      .ok (.table Sample.drifted) := by
    rw [Json.write, String.toList_ofList]
    exact Json.Strict.document_writeAt Json.Spacing.blank_compact hwritable
  have htold : Told .json Sample.drifted Sample.empty ⟨1, 0, 0, 0, 0⟩ :=
    ⟨rfl, rfl, rfl, rfl, rfl, rfl⟩
  have hmiscount : ¬ (⟨1, 0, 0, 0, 0⟩ : Summary).Counts Sample.empty.issues := fun h =>
    absurd h.total (by decide)
  exact ⟨hdocument, htold, hmiscount, summary_counts.2.1 _ _ _ _ hdocument htold hmiscount⟩

end Report
end LintMerge
