/-
# Linters that crash

A linter that crashed ends with a code other than zero, and so does one that found something.
Three linters tell the two apart by the document that they print: where there is none, their
attempt is to be a failed one. Two checks see to this. A code other than one needs output that
opens like a document, and all output that is read has to be a document of the right kind.

Between the two checks there is a gap (`Attempt.Unseen`). With the code one the output is read
however it starts, and blank output, or a null, is read without a fault. Exactly then a linter
that ended with a code other than zero passes for one that worked although it printed no
document of its kind (`Attempt.success_without_report_iff`), as one does that dies of an
exception before it prints anything (`Attempt.not_isReport_of_success`).
-/

import LintMerge.Proofs.Linter.Returning
import LintMerge.Proofs.Output.Shape

namespace LintMerge

namespace Json

/-- What is read after an opening bracket is a list. -/
theorem isList_of_items {fuel : Nat} {done : List Value} {s rest : List Char} {v : Value}
    (h : items fuel done s = .ok (v, rest)) : ∃ vs, v = .list vs := by
  induction fuel generalizing done s with
  | zero => cases h
  | succ fuel ih =>
    rw [items] at h
    obtain ⟨⟨a, s'⟩, -, h⟩ := Faulty.bind_eq_ok.1 h
    dsimp only at h
    split at h
    · cases h
      exact ⟨_, rfl⟩
    · exact ih h
    · cases h

/-- What is read after an opening brace is a table. -/
theorem isTable_of_members {fuel : Nat} {done : List (String × Value)} {s rest : List Char} {v : Value}
    (h : members fuel done s = .ok (v, rest)) : ∃ es, v = .table es := by
  induction fuel generalizing done s with
  | zero => cases h
  | succ fuel ih =>
    unfold members at h
    split at h
    · obtain ⟨⟨name, s'⟩, -, h⟩ := Faulty.bind_eq_ok.1 h
      dsimp only at h
      split at h
      · obtain ⟨⟨a, s''⟩, -, h⟩ := Faulty.bind_eq_ok.1 h
        dsimp only at h
        split at h
        · cases h
          exact ⟨_, rfl⟩
        · exact ih h
        · cases h
      · cases h
    · cases h

/-- A value that opens with a bracket or a brace is a list or a table. -/
theorem ne_null_of_value {fuel : Nat} {c : Char} (hc : c = '[' ∨ c = '\x7b') {s rest : List Char} {v : Value}
    (h : value (fuel + 1) (c :: s) = .ok (v, rest)) : v ≠ .null := by
  rintro rfl
  rcases hc with rfl | rfl <;> rw [value] at h <;> split at h
  · cases h
  · obtain ⟨_, hv⟩ := isList_of_items h
    cases hv
  · cases h
  · obtain ⟨_, hv⟩ := isTable_of_members h
    cases hv

/-- A document that opens with a bracket or a brace is no null. -/
theorem document_ne_null {c : Char} (hc : c = '[' ∨ c = '\x7b') (s : List Char) :
    document (c :: s) ≠ .ok .null := by
  have hskip : skip (c :: s) = c :: s := by rcases hc with rfl | rfl <;> rfl
  intro h
  unfold document at h
  split at h
  · cases h
  · rw [hskip] at h
    dsimp only at h
    split at h
    · cases h
    · next hvalue =>
      split at h
      · cases h
        exact ne_null_of_value hc hvalue rfl
      · cases h

end Json

namespace Linter

/-- The kind of document that a linter prints: a list, or a table. -/
def IsReport : Linter → Value → Prop
  | eslint, v => ∃ items, v = .list items
  | oxlint, v | biome, v => ∃ entries, v = .table entries
  | tsc, _ => False

variable {l : Linter} {o : Outcome}

/-- The codes with which a linter that prints a document ends when it worked. -/
theorem usualCodes_of_ne_tsc (hl : l ≠ .tsc) : l.usualCodes = [0, 1] := by
  cases l with
  | eslint | oxlint | biome => rfl
  | tsc => exact absurd rfl hl

/-- A document of the right shape is one of the right kind. -/
theorem isReport_of_expects {v : Value} (h : l.Expects v) : l.IsReport v := by
  cases l with
  | eslint => exact h.imp fun _ hv => hv.1
  | oxlint => exact h.imp fun _ hv => hv.1
  | biome => exact h.imp fun _ hv => hv.1
  | tsc => exact h

theorem not_isReport_null : ¬ l.IsReport .null := by
  cases l with
  | eslint =>
    rintro ⟨_, hv⟩
    cases hv
  | oxlint =>
    rintro ⟨_, hv⟩
    cases hv
  | biome =>
    rintro ⟨_, hv⟩
    cases hv
  | tsc => exact id

/-- Output that opens like a document is neither blank nor a null. -/
theorem load_ne_none_of_opensDocument {tool output : String} (h : l.opensDocument output = true) :
    Output.load tool output ≠ .ok none := by
  obtain ⟨c, hc, hhead⟩ : ∃ c, (c = '[' ∨ c = '\x7b') ∧
      (Text.trimStart output.toList).head? = some c := by
    cases l with
    | eslint => exact ⟨_, .inl rfl, of_decide_eq_true h⟩
    | oxlint => exact ⟨_, .inr rfl, of_decide_eq_true h⟩
    | biome => exact ⟨_, .inr rfl, of_decide_eq_true h⟩
    | tsc => cases h
  rw [Ne, Output.load_eq_ok_none_iff, isBlankText_iff, Output.Prints]
  obtain ⟨s, hs⟩ := List.head?_eq_some_iff.1 hhead
  have hblank : Text.isBlank c = false := by rcases hc with rfl | rfl <;> decide
  have hne : Text.trim output.toList ≠ [] := by
    rw [Text.trim, Text.trimEnd, hs, Ne, List.reverse_eq_nil_iff, List.dropWhile_eq_nil_iff]
    intro hall
    have := hall c (by simp)
    rw [hblank] at this
    cases this
  obtain ⟨t, ht⟩ := Text.trimEnd_isPrefix (Text.trimStart output.toList)
  cases htrim : Text.trim output.toList with
  | nil => exact absurd htrim hne
  | cons a rest =>
    rw [← Text.trim, htrim, hs] at ht
    obtain ⟨rfl, -⟩ := List.cons.inj ht
    rintro (hnil | hnull)
    · cases hnil
    · exact Json.document_ne_null hc rest hnull

end Linter

namespace Attempt

/-- A crash that goes unseen: the code is the one that also tells of findings, and nothing is
printed, or a null. -/
def Unseen (o : Outcome) : Prop :=
  o.exitCode = 1 ∧ (isBlankText o.stdout = true ∨ Output.Prints o.stdout .null)

variable {h : Host} {l : Linter} {i : Invocation} {r : Runner} {o : Outcome}

theorem output_of_ne_tsc (hl : l ≠ .tsc) (o : Outcome) : output l o = o.stdout := by
  rw [output, Linter.usesBothStreams_tool, Linter.usesBothStreams, decide_eq_false hl]
  rfl

/-- A crash that goes unseen is read as a run without issues. -/
theorem Unseen.parse (ho : Unseen o) (hl : l ≠ .tsc) (htime : o.timedOut = false) :
    Worked l o ∧ l.parse i.cwd (output l o) = .ok [] := by
  refine ⟨⟨htime, ?_⟩, ?_⟩
  · rw [Linter.failure?, Linter.usualCodes_of_ne_tsc hl, ho.1]
    rfl
  · rw [output_of_ne_tsc hl]
    exact Linter.parse_of_load hl (Output.load_eq_ok_none_iff.2 ho.2)

/-- A linter that did not end with zero and whose output is read has printed a document of its
kind, or its crash goes unseen. -/
theorem isReport_of_parse (hl : l ≠ .tsc) (hcode : o.exitCode ≠ 0) (hworked : Worked l o)
    {issues : List Issue} (hparse : l.parse i.cwd (output l o) = .ok issues) :
    (∃ v, Output.Prints o.stdout v ∧ l.IsReport v) ∨ Unseen o := by
  rw [output_of_ne_tsc hl] at hparse
  rcases Linter.prints_of_parse hl hparse with ⟨hload, -⟩ | ⟨v, hv, hexpects⟩
  · refine .inr ⟨?_, Output.load_eq_ok_none_iff.1 hload⟩
    have hfailure := hworked.2
    rw [Linter.failure?, Linter.usualCodes_of_ne_tsc hl] at hfailure
    split at hfailure
    · next hread =>
      rcases Bool.or_eq_true_iff.1 hread with husual | hopens
      · have hmem : o.exitCode ∈ [0, 1] := List.contains_iff_mem.1 husual
        simpa [hcode] using hmem
      · exact absurd hload (Linter.load_ne_none_of_opensDocument hopens)
    · cases hfailure
  · exact .inl ⟨v, hv, Linter.isReport_of_expects hexpects⟩

/-- No document of its kind was printed by a linter the crash of which goes unseen. -/
theorem Unseen.not_isReport (ho : Unseen o) {v : Value} (hv : Output.Prints o.stdout v) :
    ¬ l.IsReport v := by
  rcases ho.2 with hblank | hnull
  · rw [Output.Prints, isBlankText_iff.1 hblank] at hv
    cases hv
  · cases hnull.symm.trans hv
    exact Linter.not_isReport_null

/-- A linter that is there and has one answer. -/
structure Answers (h : Host) (l : Linter) (i : Invocation) (r : Runner) (o : Outcome) : Prop where
  found : ∃ p, h.locate i.cwd l.binaries i.bin = .ok (some p)
  only : ∀ o', MayAnswer h l i r o' → o' = o

theorem answers_of_call {p : Program} (hlocate : h.locate i.cwd l.binaries i.bin = .ok (some p))
    (ho : ∀ a, r (callOf l i p) a → a = .ok o) : Answers h l i r o where
  found := ⟨p, hlocate⟩
  only := by
    rintro o' ⟨p', hp', ha⟩
    cases hlocate.symm.trans hp'
    exact Except.ok.inj (ho _ ha)

/-- A crash that goes unseen is always taken for a run without issues. -/
theorem Unseen.success (hu : Unseen o) (hl : l ≠ .tsc) (htime : o.timedOut = false)
    (ho : Answers h l i r o) {x : Except Fault Attempt} (hx : Ending h l i r x) :
    ∃ a, x = .ok a ∧ a.run.success = true ∧ a.issues = [] := by
  obtain ⟨p, hp⟩ := ho.found
  have hread : Worked l o ∧ l.parse i.cwd (output l o) = .ok [] := hu.parse hl htime
  cases hx with
  | missing hmissing => cases hp.symm.trans hmissing
  | tooLong hlong => cases hp.symm.trans hlong
  | failed hmay hunread =>
    cases ho.only _ hmay
    exact absurd hread.2 (hunread hread.1 [])
  | tooManyDigits hmay _ hparse =>
    cases ho.only _ hmay
    cases hread.2.symm.trans hparse
  | read hmay _ hparse _ hsuccess hissues =>
    cases ho.only _ hmay
    cases hread.2.symm.trans hparse
    rw [Linter.isProjectWide, decide_eq_false hl] at hissues
    exact ⟨_, rfl, hsuccess, hissues⟩

/-- A linter that did not end with zero succeeds with a document of its kind, or unseen. -/
theorem isReport_of_ending (hl : l ≠ .tsc) (hcode : o.exitCode ≠ 0) (ho : Answers h l i r o)
    {a : Attempt} (ha : Ending h l i r (.ok a)) (hsuccess : a.run.success = true) :
    (∃ v, Output.Prints o.stdout v ∧ l.IsReport v) ∨ Unseen o := by
  cases ha with
  | missing _ _ hfail => cases hfail.symm.trans hsuccess
  | failed _ _ _ hfail => cases hfail.symm.trans hsuccess
  | read hmay hworked hparse =>
    cases ho.only _ hmay
    exact isReport_of_parse hl hcode hworked hparse

/-- How an attempt ends for its user: well, as a failure that says why, or not at all because of
the digits of an integer in the output. -/
theorem cases_of_ending (hl : l ≠ .tsc) (ho : Answers h l i r o) {x : Except Fault Attempt}
    (hx : Ending h l i r x) :
    (∃ a, x = .ok a ∧ a.run.success = true ∧ a.run.error = none) ∨
      (∃ a e, x = .ok a ∧ a.run.success = false ∧ a.run.error = some e ∧ e ≠ "" ∧ a.issues = []) ∨
      ∃ n, x = .error (.tooManyDigits n) ∧ Text.HasLongRow n o.stdout.toList := by
  cases hx with
  | missing _ hsound hfail | failed _ _ hsound hfail =>
    obtain ⟨⟨e, he, hne⟩, -, hissues⟩ := hsound.failed hfail
    exact .inr (.inl ⟨_, e, rfl, hfail, he, hne, hissues⟩)
  | read _ _ _ hsound hsuccess => exact .inl ⟨_, rfl, hsuccess, (hsound.succeeded hsuccess).1⟩
  | tooLong hlong =>
    obtain ⟨p, hp⟩ := ho.found
    cases hp.symm.trans hlong
  | tooManyDigits hmay _ _ hrow =>
    cases ho.only _ hmay
    exact .inr (.inr ⟨_, rfl, output_of_ne_tsc hl o ▸ hrow⟩)

/-- **A linter that did not end with zero.** Its attempt ends: as a success, as a failure that says
why, or with the fault of an integer in the output that has too many digits. It is a success
although no document of the linter's kind was printed exactly when the crash goes unseen, and then
it has no issues. -/
theorem success_without_report_iff (h : Host) (l : Linter) (i : Invocation) (r : Runner) (p : Program)
    (o : Outcome) (hl : l ≠ .tsc) (hr : r.Returns)
    (hlocate : h.locate i.cwd l.binaries i.bin = .ok (some p))
    (ho : ∀ a, r (callOf l i p) a → a = .ok o) (htime : o.timedOut = false) (hcode : o.exitCode ≠ 0) :
    (∃ x, (perform h l i).MayEnd r x) ∧ ∀ x, (perform h l i).MayEnd r x →
      ((∃ a, x = .ok a ∧ a.run.success = true ∧ a.run.error = none) ∨
        (∃ a e, x = .ok a ∧ a.run.success = false ∧ a.run.error = some e ∧ e ≠ "" ∧ a.issues = []) ∨
        ∃ n, x = .error (.tooManyDigits n) ∧ Text.HasLongRow n o.stdout.toList) ∧
      ((∃ a, x = .ok a ∧ a.run.success = true ∧ ∀ v, Output.Prints o.stdout v → ¬ l.IsReport v) ↔
        Unseen o) ∧
      (Unseen o → ∃ a, x = .ok a ∧ a.issues = []) := by
  have hanswers : Answers h l i r o := answers_of_call hlocate ho
  refine ⟨Job.exists_mayEnd hr.total _, fun x hx => ?_⟩
  have hending : Ending h l i r x := hx.of_ensures (ending_perform hr)
  refine ⟨cases_of_ending hl hanswers hending, ⟨?_, fun hu => ?_⟩, fun hu => ?_⟩
  · rintro ⟨a, rfl, hsuccess, hnone⟩
    rcases isReport_of_ending hl hcode hanswers hending hsuccess with ⟨v, hv, hreport⟩ | hu
    · exact absurd hreport (hnone v hv)
    · exact hu
  · obtain ⟨a, ha, hsuccess, -⟩ := hu.success hl htime hanswers hending
    exact ⟨a, ha, hsuccess, fun v hv => hu.not_isReport hv⟩
  · obtain ⟨a, ha, -, hissues⟩ := hu.success hl htime hanswers hending
    exact ⟨a, ha, hissues⟩

namespace Sample

/-- eslint, started in a project. -/
def invocation : Invocation := { cwd := ⟨1, ["project"]⟩ }

/-- The program of eslint. -/
def program : Program := ⟨"eslint", "/bin/eslint", .searched⟩

/-- A program that dies of an exception with a code. -/
def dying (code : Int) : Outcome := { stderr := "TypeError: boom", exitCode := code }

theorem locate_program : (Batch.Sample.host .codePoints).locate invocation.cwd
    (Linter.binaries .eslint) invocation.bin = .ok (some program) := by decide +kernel

end Sample

/-- The hypotheses of `success_without_report_iff` hold together: a linter that ends with the code
two has failed. -/
theorem success_without_report_iff_two : Linter.eslint ≠ .tsc ∧ (Sample.dying 2).timedOut = false ∧
    (Sample.dying 2).exitCode ≠ 0 ∧
    ∀ x, (perform (Batch.Sample.host .codePoints) Linter.eslint Sample.invocation).MayEnd
        (.exactly fun _ => .ok (Sample.dying 2)) x →
      ¬ ∃ a, x = .ok a ∧ a.run.success = true ∧
        ∀ v, Output.Prints (Sample.dying 2).stdout v → ¬ Linter.eslint.IsReport v := by
  refine ⟨by decide, rfl, by decide, fun x hx hcrash => ?_⟩
  have hunseen := ((success_without_report_iff _ .eslint _ _ _ (Sample.dying 2) (by decide)
    (Runner.returns_exactly fun _ => Sample.dying 2) Sample.locate_program (fun _ ha => ha) rfl
    (by decide)).2 x hx).2.1.1 hcrash
  exact absurd hunseen.1 (by decide)

/-- **A crash may pass for a clean run.** eslint dies of an exception with the code one before it
prints anything, and its attempt is a success. -/
theorem not_isReport_of_success : ¬ ∀ (h : Host) (l : Linter) (i : Invocation) (r : Runner)
    (p : Program) (o : Outcome), l ≠ .tsc → r.Returns →
    h.locate i.cwd l.binaries i.bin = .ok (some p) → (∀ a, r (callOf l i p) a → a = .ok o) →
    o.timedOut = false → o.exitCode ≠ 0 → ∀ a, (perform h l i).MayEnd r (.ok a) →
      a.run.success = true → ∃ v, Output.Prints o.stdout v ∧ l.IsReport v := by
  intro hclaim
  have hunseen : Unseen (Sample.dying 1) := ⟨rfl, .inl rfl⟩
  have hreturns := Runner.returns_exactly fun _ => Sample.dying 1
  have hanswers := answers_of_call (r := .exactly fun _ => .ok (Sample.dying 1))
    Sample.locate_program fun _ ha => ha
  obtain ⟨x, hx⟩ := Job.exists_mayEnd hreturns.total
    (perform (Batch.Sample.host .codePoints) Linter.eslint Sample.invocation)
  obtain ⟨a, rfl, hsuccess, -⟩ := hunseen.success (by decide) rfl hanswers
    (hx.of_ensures (ending_perform hreturns))
  obtain ⟨v, hv, hreport⟩ := hclaim _ .eslint _ _ _ (Sample.dying 1) (by decide) hreturns
    Sample.locate_program (fun _ ha => ha) rfl (by decide) a hx hsuccess
  exact hunseen.not_isReport hv hreport

end Attempt
end LintMerge
