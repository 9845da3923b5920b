/-
# How an attempt ends when every program answers

A program that cannot be run ends an attempt with a fault. When all programs run, an attempt
ends in one of five ways, whatever they print (`Attempt.Ending`): the linter is not there, it
failed or printed what cannot be turned into issues, or its issues are read; these three give
an attempt that is sound, and the first two a failed one. The two others are faults, and they
do occur (`Attempt.mayEnd_perform`): the path at which a program is looked for is longer than
the system takes, or an integer in the output has too many digits. For these digits nothing is
reported, not even a failure (`Attempt.not_mayEnd_ok`).
-/

import LintMerge.Proofs.Batch.Containment
import LintMerge.Proofs.Output.LongNumbers

namespace LintMerge

namespace Host

variable {h : Host} {cwd p : Path}

/-- Where a program is looked for at a path that is too long, it is one of the paths. -/
theorem isTooLong_of_firstInstalled {names : List String} (hp : h.firstInstalled cwd names = .error p) :
    h.tree.isTooLong p = true := by
  induction names with
  | nil => cases hp
  | cons name rest ih =>
    rw [firstInstalled] at hp
    split at hp
    · next hlong =>
      cases hp
      exact hlong
    · split at hp
      · cases hp
      · exact ih hp

theorem isTooLong_of_named {name : String} (hp : h.named cwd name = .error p) :
    h.tree.isTooLong p = true := by
  rw [named] at hp
  dsimp only at hp
  split at hp
  · split at hp
    · next hlong =>
      cases hp
      exact hlong
    · split at hp <;> cases hp
  · cases hp

/-- A program is not located for one reason only. -/
theorem isTooLong_of_locate {candidates : List String} {name : Option String}
    (hp : h.locate cwd candidates name = .error p) : h.tree.isTooLong p = true := by
  rw [locate] at hp
  split at hp
  · exact isTooLong_of_named hp
  · cases hfirst : h.firstInstalled cwd candidates with
    | error q =>
      rw [hfirst] at hp
      cases hp
      exact isTooLong_of_firstInstalled hfirst
    | ok found =>
      rw [hfirst] at hp
      cases hp

end Host

namespace Attempt

/-- What a linter may answer when it is run, if it is there. -/
def MayAnswer (h : Host) (l : Linter) (i : Invocation) (r : Runner) (o : Outcome) : Prop :=
  ∃ p, h.locate i.cwd l.binaries i.bin = .ok (some p) ∧ r (callOf l i p) (.ok o)

/-- A linter that had time enough and did not fail; its output is read. -/
def Worked (l : Linter) (o : Outcome) : Prop := o.timedOut = false ∧ l.failure? o = none

/-- The ways in which an attempt ends when every program answers. -/
inductive Ending (h : Host) (l : Linter) (i : Invocation) (r : Runner) :
    Except Fault Attempt → Prop where
  /-- the linter is not there -/
  | missing {a : Attempt} (hlocate : h.locate i.cwd l.binaries i.bin = .ok none)
      (hsound : a.Sound l i.files.length) (hfail : a.run.success = false) : Ending h l i r (.ok a)
  /-- the linter failed, or its output cannot be turned into issues -/
  | failed {a : Attempt} {o : Outcome} (ho : MayAnswer h l i r o)
      (hunread : Worked l o → ∀ issues, l.parse i.cwd (output l o) ≠ .ok issues)
      (hsound : a.Sound l i.files.length) (hfail : a.run.success = false) : Ending h l i r (.ok a)
  /-- the output was turned into issues, all of which count unless the linter looks at more than
  it was asked for -/
  | read {a : Attempt} {o : Outcome} {issues : List Issue} (ho : MayAnswer h l i r o)
      (hworked : Worked l o) (hparse : l.parse i.cwd (output l o) = .ok issues)
      (hsound : a.Sound l i.files.length) (hsuccess : a.run.success = true)
      (hissues : a.issues =
        if l.isProjectWide then Issue.filter issues i.patterns (some i.cwd) else issues) :
      Ending h l i r (.ok a)
  /-- a path to a program is too long -/
  | tooLong {p : Path} (hlocate : h.locate i.cwd l.binaries i.bin = .error p)
      (hlong : h.tree.isTooLong p = true) : Ending h l i r (.error (.tooLong p))
  /-- an integer in the output has too many digits, which stand in it in a row -/
  | tooManyDigits {o : Outcome} {n : Nat} (ho : MayAnswer h l i r o) (hworked : Worked l o)
      (hparse : l.parse i.cwd (output l o) = .error (.tooManyDigits n))
      (hrow : Text.HasLongRow n (output l o).toList) : Ending h l i r (.error (.tooManyDigits n))

variable {h : Host} {l : Linter} {i : Invocation} {r : Runner} {o : Outcome}

theorem locate_eq_ok_iff {cwd : Path} {name : Option String} {found : Option Program} :
    locate h l cwd name = .ok found ↔ h.locate cwd l.binaries name = .ok found := by
  rw [locate, Linter.binaries_tool]
  cases h.locate cwd l.binaries name <;> simp [Except.mapError]

theorem locate_eq_error_iff {cwd : Path} {name : Option String} {f : Fault} :
    locate h l cwd name = .error f ↔ ∃ p, h.locate cwd l.binaries name = .error p ∧ f = .tooLong p := by
  rw [locate, Linter.binaries_tool]
  cases h.locate cwd l.binaries name <;> simp [Except.mapError, eq_comm]

/-- A program that runs is asked for its version without a fault. -/
theorem ensures_probe (hr : r.Returns) (cwd : Path) (p : Program) :
    (probe l cwd p).Ensures r fun x => ∃ answer, x = .ok answer := by
  intro a ha
  obtain ⟨o, rfl⟩ := (hr _).2 a ha
  exact ⟨_, rfl⟩

theorem ending_failed (ho : MayAnswer h l i r o)
    (hunread : Worked l o → ∀ issues, l.parse i.cwd (output l o) ≠ .ok issues) (version : String)
    {message : String} (hm : message ≠ "") : (failing l version message).Ensures r (Ending h l i r) :=
  .failed ho hunread (sound_failed l _ version hm) rfl

theorem ending_read {issues : List Issue} (ho : MayAnswer h l i r o) (hworked : Worked l o)
    (hparse : l.parse i.cwd (output l o) = .ok issues) (version : String) (warning : Option String) :
    Ending h l i r (.ok (succeeded l i version warning issues)) :=
  .read ho hworked hparse
    (sound_succeeded version warning fun _ hi => Linter.found_of_parse hparse hi) rfl rfl

/-- **Whatever a linter answers**, the attempt ends in one of the ways. -/
theorem ending_conclude (ho : MayAnswer h l i r o) (version : String) :
    (conclude l i version o).Ensures r (Ending h l i r) := by
  rw [conclude_tool]
  split
  · next htime =>
    refine ending_failed ho (fun hworked => ?_) version (append_ne_empty (.inr (by decide)))
    rw [hworked.1] at htime
    cases htime
  · next htime =>
    split
    · next message hfailure =>
      refine ending_failed ho (fun hworked => ?_) version ?_
      · rw [hworked.2] at hfailure
        cases hfailure
      · rw [Linter.failure?] at hfailure
        split at hfailure
        · cases hfailure
        · cases hfailure
          exact l.failureText_ne_empty o
    · next hfailure =>
      have hworked : Worked l o := ⟨Bool.not_eq_true _ ▸ htime, hfailure⟩
      rw [read_tool]
      split
      · next hparse => exact .tooManyDigits ho hworked hparse (Linter.hasLongRow_of_parse hparse)
      · next hparse =>
        refine ending_failed ho (fun _ issues h => ?_) version (Output.malformedMessage_ne_empty _ _)
        cases hparse.symm.trans h
      · next hparse =>
        refine ending_failed ho (fun _ issues h => ?_) version (Output.malformedMessage_ne_empty _ _)
        cases hparse.symm.trans h
      · next hparse =>
        rw [accept_tool]
        split
        · exact ending_read ho hworked hparse version _
        · exact ending_read ho hworked hparse version _

/-- Every course of an attempt ends in one of the ways. -/
theorem ending_perform (hr : r.Returns) : (perform h l i).Ensures r (Ending h l i r) := by
  rw [perform_tool]
  split
  · next f hfault =>
    obtain ⟨p, hlocate, rfl⟩ := locate_eq_error_iff.1 hfault
    exact .tooLong hlocate (Host.isTooLong_of_locate hlocate)
  · next hlocate =>
    exact .missing (locate_eq_ok_iff.1 hlocate) (sound_failed l _ _ l.missingMessage_ne_empty) rfl
  · next p hlocate =>
    refine (ensures_probe hr i.cwd p).bind ?_
    rintro _ ⟨answer, rfl⟩ a ha
    obtain ⟨o, rfl⟩ := (hr _).2 a ha
    exact ending_conclude ⟨p, locate_eq_ok_iff.1 hlocate, ha⟩ _

/-- An integer with too many digits in the output of a linter that worked ends an attempt. -/
theorem conclude_of_tooManyDigits {n : Nat} (hworked : Worked l o)
    (hparse : l.parse i.cwd (output l o) = .error (.tooManyDigits n)) (version : String) :
    conclude l i version o = .done (.error (.tooManyDigits n)) := by
  rw [conclude_tool, hworked.1, if_neg Bool.false_ne_true, hworked.2]
  dsimp only
  rw [read_tool, hparse]

/-- A fault that an attempt can end with does end it on some course. -/
theorem mayEnd_of_ending (hr : r.Returns) {f : Fault} (hf : Ending h l i r (.error f)) :
    (perform h l i).MayEnd r (.error f) := by
  cases hf with
  | tooLong hlocate _ =>
    rw [perform_tool, locate_eq_error_iff.2 ⟨_, hlocate, rfl⟩]
    exact .done
  | tooManyDigits ho hworked hparse _ =>
    obtain ⟨p, hlocate, ho⟩ := ho
    obtain ⟨x, hx⟩ := Job.exists_mayEnd hr.total (probe l i.cwd p)
    obtain ⟨answer, rfl⟩ := hx.of_ensures (ensures_probe hr i.cwd p)
    rw [perform_tool, locate_eq_ok_iff.2 hlocate]
    refine hx.bind (.step .tell (.step (.call ho) ?_))
    dsimp only
    rw [conclude_of_tooManyDigits hworked hparse]
    exact .done

/-- **How an attempt ends.** When every program answers, an attempt ends, and it ends in one of the
ways: without an attempt to report only where a path to a program is too long or an integer in the
output has too many digits, and there it does. -/
theorem mayEnd_perform (h : Host) (l : Linter) (i : Invocation) (r : Runner) (hr : r.Returns) :
    (∃ x, (perform h l i).MayEnd r x) ∧
    (∀ x, (perform h l i).MayEnd r x → Ending h l i r x) ∧
    ∀ f, (perform h l i).MayEnd r (.error f) ↔ Ending h l i r (.error f) :=
  ⟨Job.exists_mayEnd hr.total _, fun _ hx => hx.of_ensures (ending_perform hr),
    fun _ => ⟨fun hf => hf.of_ensures (ending_perform hr), mayEnd_of_ending hr⟩⟩

namespace Sample

/-- A program that tells a version when it is asked for one, and else what it found in a file. -/
def printing (c : Call) : Outcome :=
  if c.args = Linter.versionArgs then { stdout := "v9.1.0\n" }
  else
    { exitCode := 1
      stdout := "[\x7b\"filePath\":\"a.ts\",\"messages\":[\x7b\"ruleId\":\"eqeqeq\",\"severity\":2," ++
        "\"message\":\"Expected an equality.\",\"line\":3,\"column\":7\x7d]\x7d]" }

/-- A run over a file. -/
def linting : Invocation := { cwd := ⟨1, ["project"]⟩, files := [⟨1, ["project", "a.ts"]⟩] }

end Sample

/-- The hypothesis of `mayEnd_perform` holds of a linter that tells its version and finds an issue,
which is read. -/
theorem mayEnd_perform_printing : (Runner.exactly fun c => .ok (Sample.printing c)).Returns ∧
    ∃ a, Ending (Batch.Sample.host .codePoints) .eslint Sample.linting
        (.exactly fun c => .ok (Sample.printing c)) (.ok a) ∧
      a.run.version = "9.1.0" ∧ a.run.success = true ∧
      a.issues.map (fun i => (i.path, i.message)) = [("a.ts", "Expected an equality.")] := by
  have hreturns := Runner.returns_exactly Sample.printing
  have hvalue : ((perform (Batch.Sample.host .codePoints) Linter.eslint Sample.linting).value
      fun c => .ok (Sample.printing c)).map
        (fun a => (a.run.version, a.run.success, a.issues.map fun i => (i.path, i.message))) =
      .ok ("9.1.0", true, [("a.ts", "Expected an equality.")]) := by decide +kernel
  cases ha : (perform (Batch.Sample.host .codePoints) Linter.eslint Sample.linting).value
      fun c => .ok (Sample.printing c) with
  | error f =>
    rw [ha] at hvalue
    cases hvalue
  | ok a =>
    rw [ha] at hvalue
    have hfacts := Except.ok.inj hvalue
    simp only [Prod.mk.injEq] at hfacts
    have hend := (mayEnd_perform (Batch.Sample.host .codePoints) .eslint Sample.linting _ hreturns).2.1
      (.ok a) (Job.mayEnd_exactly.2 ha.symm)
    exact ⟨hreturns, a, hend, hfacts⟩

namespace Sample

/-- A row of ones. -/
def ones (n : Nat) : String := String.ofList (List.replicate n '1')

/-- An output that is a row of too many ones is given up. -/
theorem load_ones {n : Nat} (hn : Text.maxDigits < n) (tool : String) :
    Output.load tool (ones n) = .error (.tooManyDigits n) := by
  have hblank : Text.isBlank '1' = false := by decide
  have htrim : Text.trim (List.replicate n '1') = List.replicate n '1' := by
    simp [Text.trim, Text.trimEnd, Text.trimStart, hblank]
  have hne : (List.replicate n '1').isEmpty = false := by
    obtain ⟨k, rfl⟩ : ∃ k, n = k + 1 := ⟨n - 1, by omega⟩
    rfl
  rw [Output.load, ones, String.toList_ofList, htrim, hne, Json.document_ones hn]
  rfl

end Sample

/-- **Programs that run are not enough.** eslint prints one integer, of which the digits are too
many, and the attempt ends without anything to report. -/
theorem not_mayEnd_ok : ¬ ∀ (h : Host) (l : Linter) (i : Invocation) (r : Runner), r.Returns →
    ∀ x, (perform h l i).MayEnd r x → ∃ a, x = .ok a := by
  intro h
  have hreturns := Runner.returns_exactly fun _ => { stdout := Sample.ones 4301 }
  have hparse : Linter.eslint.parse ⟨1, ["project"]⟩ (Sample.ones 4301) =
      .error (.tooManyDigits 4301) :=
    Faulty.bind_eq_error.2 (.inl (Sample.load_ones (by decide) "eslint"))
  have hending : Ending (Batch.Sample.host .codePoints) .eslint { cwd := ⟨1, ["project"]⟩ }
      (.exactly fun _ => .ok { stdout := Sample.ones 4301 }) (.error (.tooManyDigits 4301)) :=
    .tooManyDigits ⟨⟨"eslint", "/bin/eslint", .searched⟩, by decide +kernel, rfl⟩ ⟨rfl, rfl⟩ hparse
      (Linter.hasLongRow_of_parse hparse)
  obtain ⟨a, ha⟩ := h _ _ _ _ hreturns _ (mayEnd_of_ending hreturns hending)
  cases ha

end Attempt
end LintMerge
