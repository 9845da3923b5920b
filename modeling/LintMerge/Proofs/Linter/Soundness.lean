/-
# What an attempt says is sound

An attempt that failed tells why, and contributes nothing; one that succeeded tells no
error and has processed all files; and all issues of an attempt are the linter's own.
This is `Attempt.Sound`. Every way in which running a linter can end comes to such an
attempt: a failure has a message that is not empty, whichever text it is made from, and
a fault that ends the attempt is named in the same way. So it holds on every course of
the job (`Batch.ensures_attempt`), whatever programs answer.
-/

import LintMerge.Batch.Run
import LintMerge.Proofs.Output.Found
import LintMerge.Proofs.Process.Course

namespace LintMerge

/-- A text with a part that is not empty. -/
theorem append_ne_empty {s t : String} (h : s ≠ "" ∨ t ≠ "") : s ++ t ≠ "" := by
  rw [Ne, ← String.toList_eq_nil_iff, String.toList_append, List.append_eq_nil_iff,
    String.toList_eq_nil_iff, String.toList_eq_nil_iff]
  rintro ⟨hs, ht⟩
  exact h.elim (· hs) (· ht)

namespace Linter

theorem statusMessage_ne_empty (l : Linter) (code : Int) : l.statusMessage code ≠ "" :=
  append_ne_empty (.inl (append_ne_empty (.inr (by decide))))

/-- A failed linter is said to have failed for some reason. -/
theorem failureText_ne_empty (l : Linter) (o : Outcome) : l.failureText o ≠ "" := by
  cases l with
  | eslint => exact firstNotEmpty_ne_empty (List.cons_ne_nil _ _) (by simp)
  | oxlint => exact firstNotEmpty_ne_empty (List.cons_ne_nil _ _) (statusMessage_ne_empty _ _)
  | biome => exact firstNotEmpty_ne_empty (List.cons_ne_nil _ _) (statusMessage_ne_empty _ _)
  | tsc => exact firstNotEmpty_ne_empty (List.cons_ne_nil _ _) (statusMessage_ne_empty _ _)

theorem missingMessage_ne_empty (l : Linter) : l.missingMessage ≠ "" := by
  cases l <;> decide

end Linter

theorem Output.malformedMessage_ne_empty (tool detail : String) : malformedMessage tool detail ≠ "" :=
  append_ne_empty (.inl (append_ne_empty (.inr (by decide))))

/-- The filter of a linter keeps some of its issues and adds none. -/
theorem Issue.filter_sublist (issues : List Issue) (patterns : List String) (root : Option Path) :
    (Issue.filter issues patterns root).Sublist issues := by
  rw [Issue.filter]
  split
  · exact List.Sublist.refl issues
  · dsimp only
    split
    · exact List.Sublist.refl issues
    · exact List.filter_sublist

namespace Attempt

/-- A fault is said to be something. -/
theorem Fault.shown_ne_empty (f : Fault) : f.shown ≠ "" := by
  cases f with
  | call f => exact f.shown_ne_empty
  | tooLong p => exact append_ne_empty (.inl (by decide))
  | tooManyDigits count =>
    exact append_ne_empty (.inl (append_ne_empty (.inl (append_ne_empty (.inl
      (append_ne_empty (.inl (by decide))))))))
  | raised f => exact f.shown_ne_empty

/-- What an attempt of a linter to process some number of files says is in order. -/
structure Sound (l : Linter) (count : Nat) (a : Attempt) : Prop where
  linter : a.run.linter = l
  /-- a failure tells why, and leaves nothing behind -/
  failed : a.run.success = false →
    (∃ e, a.run.error = some e ∧ e ≠ "") ∧ a.run.filesProcessed = 0 ∧ a.issues = []
  /-- a success is none in part -/
  succeeded : a.run.success = true → a.run.error = none ∧ a.run.filesProcessed = count
  found : ∀ i ∈ a.issues, i.FoundBy l

variable {r : Runner} {l : Linter} {count : Nat}

theorem sound_failed (l : Linter) (count : Nat) (version : String) {message : String}
    (hm : message ≠ "") : (failed l version message).Sound l count where
  linter := rfl
  failed := fun _ => ⟨⟨message, rfl, hm⟩, rfl, rfl⟩
  succeeded := fun h => nomatch h
  found := fun _ hi => absurd hi List.not_mem_nil

theorem sound_succeeded {i : Invocation} (version : String) (warning : Option String)
    {issues : List Issue} (hi : ∀ i ∈ issues, i.FoundBy l) :
    (succeeded l i version warning issues).Sound l i.files.length where
  linter := rfl
  failed := fun h => nomatch h
  succeeded := fun _ => ⟨rfl, rfl⟩
  found := by
    intro issue hmem
    rw [succeeded] at hmem
    split at hmem
    · exact hi issue ((Issue.filter_sublist _ _ _).subset hmem)
    · exact hi issue hmem

/-- What the outcome of an attempt says is in order, if no fault ended it. -/
def SoundOutcome (l : Linter) (count : Nat) : Except Fault Attempt → Prop
  | .ok a => a.Sound l count
  | .error _ => True

theorem ensures_failing (version : String) {message : String} (hm : message ≠ "") :
    (failing l version message).Ensures r (SoundOutcome l count) :=
  sound_failed l count version hm

/-- **Whatever a linter answers**, what the attempt says of it is in order. -/
theorem ensures_conclude (l : Linter) (i : Invocation) (version : String) (o : Outcome) :
    (conclude l i version o).Ensures r (SoundOutcome l i.files.length) := by
  rw [conclude_tool]
  split
  · exact ensures_failing version (append_ne_empty (.inr (by decide)))
  · split
    · next message hfailure =>
      refine ensures_failing version ?_
      rw [Linter.failure?] at hfailure
      split at hfailure
      · cases hfailure
      · cases hfailure
        exact l.failureText_ne_empty o
    · rw [read_tool]
      split
      · exact trivial
      · exact ensures_failing version (Output.malformedMessage_ne_empty _ _)
      · exact ensures_failing version (Output.malformedMessage_ne_empty _ _)
      · next issues hparse =>
        have hfound : ∀ i ∈ issues, i.FoundBy l := fun i hi => Linter.found_of_parse hparse hi
        rw [accept_tool]
        split
        · exact sound_succeeded version _ hfound
        · exact sound_succeeded version _ hfound

theorem ensures_launch (l : Linter) (i : Invocation) (p : Program) (version : String) :
    (launch l i p version).Ensures r (SoundOutcome l i.files.length) := by
  intro answer _
  cases answer with
  | error f => exact trivial
  | ok o => exact ensures_conclude l i version o

theorem ensures_perform (h : Host) (l : Linter) (i : Invocation) :
    (perform h l i).Ensures r (SoundOutcome l i.files.length) := by
  rw [perform_tool]
  split
  · exact trivial
  · exact ensures_failing _ l.missingMessage_ne_empty
  · next p _ =>
    refine (Job.ensures_of_forall (P := fun _ => True) (fun _ => trivial) (probe l i.cwd p)).bind ?_
    rintro (f | answer) -
    · exact trivial
    · exact ensures_launch l i p _

end Attempt

/-- **Every course of an attempt in a batch ends with an attempt that is sound.** A fault that
ends it becomes a failure with the text of the fault. -/
theorem Batch.ensures_attempt {r : Runner} (h : Host) (o : Options) (l : Linter) :
    (attempt h o l).Ensures r (Attempt.Sound l o.files.length) := by
  refine (Attempt.ensures_perform h l (o.invocationFor l.name)).bind ?_
  rintro (f | a) ha
  · exact Attempt.sound_failed l _ _ f.shown_ne_empty
  · exact ha

/-- So it is with all the built-in tools of a batch. -/
theorem Batch.ensures_attempts {r : Runner} (h : Host) (o : Options) :
    ∀ k ∈ o.tools, (attempt h o k).Ensures r (Attempt.Sound k.linter o.files.length) := by
  intro k hk
  obtain ⟨l, -, rfl⟩ := List.mem_map.1 hk
  exact ensures_attempt h o l

end LintMerge
