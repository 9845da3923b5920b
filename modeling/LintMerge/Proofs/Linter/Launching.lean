/-
# Linters that are launched

`Launch.launch` (`run_process`) answers a call by carrying out the program that it names. A call
that gives no time, or of which a text holds the character U+0000, is no call that the system could
refuse: the fault is its own, and any other is one of the system (`Launch.bySystem_of_launch`). What
a program came to is told as it is, but for the ends of lines, and the steps that a script may take
have no part in it, unless it is that time ran out (`Launch.started_of_launch`).

A linter gives its program time and names it by a path that leads to a file, so it calls it in a way
that makes sense where its arguments do. So the version of a launched linter is asked for without a
fault, and the only fault by which the attempt can end in a call is one of the system
(`Attempt.ensures_perform_launch`).
-/

import LintMerge.Process.Launch
import LintMerge.Proofs.Linter.Returning
import LintMerge.Proofs.Path.Keys
import LintMerge.Proofs.Shell.Steps

namespace LintMerge

namespace Path

variable {p : Path} {s : String}

/-- A path that the system takes as a whole has a text without U+0000. -/
theorem nul_notMem_text (h : p.endsEarly = false) : '\x00' ∉ p.text.toList := by
  have hsegments : ∀ t ∈ p.segments, '\x00' ∉ t.toList := by simpa [endsEarly] using h
  rw [text]
  split
  · decide
  · rw [String.toList_append, String.toList_ofList, List.mem_append, not_or]
    refine ⟨fun hslash => absurd (List.eq_of_mem_replicate hslash) (by decide), fun hjoined => ?_⟩
    rcases mem_joined hjoined with hslash | ⟨t, ht, hnul⟩
    · exact absurd hslash (by decide)
    · exact hsegments t ht hnul

/-- A text with U+0000 is read as a path that the system does not take as a whole. -/
theorem endsEarly_ofText (h : '\x00' ∈ s.toList) : (ofText s).endsEarly = true := by
  rw [← joined_parts s] at h
  rcases mem_joined h with hslash | ⟨part, hpart, hnul⟩
  · exact absurd hslash (by decide)
  · have hsegment : isSegment part = true := by
      rw [isSegment, Bool.and_eq_true, bne_iff_ne, bne_iff_ne]
      constructor <;> rintro rfl <;> exact absurd hnul (by decide)
    rw [endsEarly, List.any_eq_true]
    exact ⟨part, List.mem_filter.2 ⟨hpart, hsegment⟩, by simpa using hnul⟩

end Path

namespace Host

variable {h : Host} {cwd p : Path} {s : String}

/-- What is at a path is found by a path that the system takes as a whole. -/
theorem whole_of_node? {n : Node} (hn : h.tree.node? p = some n) : p.endsEarly = false := by
  rw [Tree.node?, Tree.node, Tree.trail] at hn
  split at hn
  · cases hn
  · next hwhole => exact Bool.eq_false_iff.2 hwhole

theorem whole_of_isFile (hp : h.tree.isFile p = true) : p.endsEarly = false := by
  rw [Tree.isFile] at hp
  split at hp
  · next hn => exact whole_of_node? hn
  · cases hp

theorem whole_of_runs (hs : h.runs s = true) : '\x00' ∉ s.toList := by
  intro hnul
  rw [runs, Bool.and_eq_true, Tree.isProgram] at hs
  obtain ⟨-, hprogram⟩ := hs
  split at hprogram
  · next hn =>
    have hwhole := whole_of_node? hn
    rw [Path.join] at hwhole
    split at hwhole
    · rw [Path.endsEarly_ofText hnul] at hwhole
      cases hwhole
    · have hearly := Path.endsEarly_ofText hnul
      rw [Path.endsEarly] at hwhole hearly
      rw [List.any_append, hearly, Bool.or_true] at hwhole
      cases hwhole
  · cases hprogram

theorem whole_of_search? {name : String} (hs : h.search? name = some s) : '\x00' ∉ s.toList := by
  rw [search?] at hs
  split at hs
  · split at hs
    · next hruns =>
      cases hs
      exact whole_of_runs hruns
    · cases hs
  · exact whole_of_runs (List.find?_some hs)

theorem whole_of_firstInstalled {names : List String} {found : Program}
    (hp : h.firstInstalled cwd names = .ok (some found)) : '\x00' ∉ found.path.toList := by
  induction names with
  | nil => cases hp
  | cons name rest ih =>
    rw [firstInstalled] at hp
    split at hp
    · cases hp
    split at hp
    · next hfile =>
      cases hp
      exact Path.nul_notMem_text (whole_of_isFile hfile)
    · exact ih hp

theorem whole_of_named {name : String} {found : Program} (hp : h.named cwd name = .ok (some found)) :
    '\x00' ∉ found.path.toList := by
  rw [named] at hp
  split at hp
  · dsimp only at hp
    split at hp
    · cases hp
    split at hp
    · next hfile =>
      cases hp
      exact Path.nul_notMem_text (whole_of_isFile hfile)
    · cases hp
  · obtain ⟨s, hs, rfl⟩ := Option.map_eq_some_iff.1 (Except.ok.inj hp)
    exact whole_of_search? hs

/-- **The path of a program that is located** holds no U+0000. -/
theorem whole_of_locate {names : List String} {name : Option String} {found : Program}
    (hp : h.locate cwd names name = .ok (some found)) : '\x00' ∉ found.path.toList := by
  rw [locate] at hp
  split at hp
  · exact whole_of_named hp
  · cases hfirst : h.firstInstalled cwd names with
    | error q =>
      rw [hfirst] at hp
      cases hp
    | ok installed? =>
      rw [hfirst] at hp
      rcases Option.or_eq_some_iff.1 (Except.ok.inj hp) with rfl | ⟨-, hsearched⟩
      · exact whole_of_firstInstalled hfirst
      · obtain ⟨name, -, hname⟩ := List.exists_of_findSome?_eq_some hsearched
        obtain ⟨s, hs, rfl⟩ := Option.map_eq_some_iff.1 hname
        exact whole_of_search? hs

end Host

namespace Launch

variable {t : Tree} {environment : List (String × String)} {c : Call} {o : Outcome}

/-- A call makes sense: it gives time, and none of its texts holds U+0000. -/
structure Sensible (c : Call) : Prop where
  time : c.timeoutMs ≠ 0
  whole : ∀ s ∈ c.command :: c.cwd.text :: c.args, '\x00' ∉ s.toList

theorem notMem_unifyLines (s : List Char) : '\r' ∉ unifyLines s := by
  fun_induction unifyLines s with
  | case1 rest ih => simpa using ih
  | case2 rest _ ih => simpa using ih
  | case3 c rest _ hreturn ih =>
    have hc : c ≠ '\r' := hreturn
    simpa [hc.symm] using ih
  | case4 => exact List.not_mem_nil

/-- What a program came to, as it is told: one that was stopped has a code of its own, and in what
any other printed lines end with a line feed. -/
structure Told (o : Outcome) : Prop where
  stopped : o.timedOut = true → o.exitCode = timeoutCode
  lines : o.timedOut = false → '\r' ∉ o.stdout.toList ∧ '\r' ∉ o.stderr.toList

theorem told_outcome (ending : Shell.Ending) (m : Shell.Machine) : Told (outcome ending m) where
  stopped htime := by
    have hending : ending = .outOfTime := of_decide_eq_true htime
    rw [hending]
    rfl
  lines htime := by
    have hending : decide (ending ≠ .outOfTime) = true := decide_eq_true (of_decide_eq_false htime)
    unfold outcome
    dsimp only
    rw [hending]
    simp only [textOf, if_true, String.toList_ofList]
    exact ⟨notMem_unifyLines _, notMem_unifyLines _⟩

/-- What a call comes to does not hang on the steps that a script may take, until a program is
started: it makes no sense, or the system refuses it, or there is a program. -/
theorem launchWithin_cases (t : Tree) (environment : List (String × String)) (c : Call) :
    (∃ f, f.bySystem = false ∧ ¬ Sensible c ∧ ∀ n, launchWithin n t environment c = .error f) ∨
    (∃ f, f.bySystem = true ∧ Sensible c ∧ ∀ n, launchWithin n t environment c = .error f) ∨
    ∃ m e, Sensible c ∧ ∀ n, launchWithin n t environment c =
      .ok (outcome (Shell.start n m e).1 (Shell.start n m e).2) := by
  unfold launchWithin
  by_cases htime : c.timeoutMs = 0
  · exact .inl ⟨_, rfl, fun hsensible => hsensible.time htime, fun n => if_pos htime⟩
  by_cases hnul : (c.command :: c.cwd.text :: c.args).any fun s => s.toList.contains '\x00'
  · refine .inl ⟨_, rfl, fun hsensible => ?_, fun n => by rw [if_neg htime, if_pos hnul]⟩
    obtain ⟨s, hs, hnul⟩ := List.any_eq_true.1 hnul
    exact hsensible.whole s hs (by simpa using hnul)
  have hsensible : Sensible c := ⟨htime, fun s hs hnuls => hnul
    (List.any_eq_true.2 ⟨s, hs, by simpa using hnuls⟩)⟩
  simp only [if_neg htime, if_neg hnul]
  refine .inr ?_
  split
  · exact .inl ⟨_, rfl, hsensible, fun n => rfl⟩
  split
  · exact .inl ⟨_, rfl, hsensible, fun n => rfl⟩
  split
  · exact .inl ⟨_, rfl, hsensible, fun n => rfl⟩
  · exact .inr ⟨_, _, hsensible, fun n => rfl⟩

/-- **A call that is refused** is refused by the system if it makes sense, and else by itself. -/
theorem bySystem_of_launch {f : CallFault} (h : launch t environment c = .error f) :
    f.bySystem = true ↔ Sensible c := by
  obtain ⟨f', hsystem, hsensible, hall⟩ | ⟨f', hsystem, hsensible, hall⟩ | ⟨m, e, -, hall⟩ :=
    launchWithin_cases t environment c
  · cases (hall maxSteps).symm.trans h
    exact iff_of_false (by rw [hsystem]; exact Bool.false_ne_true) hsensible
  · cases (hall maxSteps).symm.trans h
    exact iff_of_true hsystem hsensible
  · cases (hall maxSteps).symm.trans h

/-- **A call that is answered** makes sense, and a program was started for it, which has left the same
behind when it may take more steps, unless it ran out of time. -/
theorem started_of_launch (h : launch t environment c = .ok o) : Sensible c ∧ Told o ∧
    ∀ n, maxSteps ≤ n → o.timedOut = false → launchWithin n t environment c = .ok o := by
  obtain ⟨f, -, -, hall⟩ | ⟨f, -, -, hall⟩ | ⟨m, e, hsensible, hall⟩ := launchWithin_cases t environment c
  · cases (hall maxSteps).symm.trans h
  · cases (hall maxSteps).symm.trans h
  · cases (hall maxSteps).symm.trans h
    refine ⟨hsensible, told_outcome _ _, fun n hle htime => ?_⟩
    rw [hall n, Shell.start_of_le hle (of_decide_eq_false htime)]

end Launch

namespace Attempt

variable {h : Host} {l : Linter} {i : Invocation} {t : Tree} {environment : List (String × String)}
  {p : Program}

/-- The version of a program is asked for without a fault. -/
theorem ensures_probe_launch {cwd : Path} (hcwd : '\x00' ∉ cwd.text.toList) (hp : '\x00' ∉ p.path.toList) :
    (probe l cwd p).Ensures (.exactly (Launch.launch t environment)) fun x => ∃ answer, x = .ok answer := by
  have hsensible : Launch.Sensible ⟨p.path, ["--version"], versionTimeoutMs, cwd⟩ := by
    refine ⟨by simp [versionTimeoutMs], ?_⟩
    simp only [List.forall_mem_cons]
    exact ⟨hp, hcwd, by decide, List.forall_mem_nil _⟩
  rintro (f | o) ha
  · have hsystem : f.bySystem = true := (Launch.bySystem_of_launch ha.symm).2 hsensible
    dsimp only
    rw [if_pos hsystem]
    exact ⟨_, rfl⟩
  · exact ⟨_, rfl⟩

/-- The call of a program that gives the linter its arguments makes sense where they do. -/
theorem sensible_callOf (hp : '\x00' ∉ p.path.toList) (hcwd : '\x00' ∉ i.cwd.text.toList)
    (hargs : ∀ s ∈ l.args i, '\x00' ∉ s.toList) : Launch.Sensible (callOf l i p) where
  time := Nat.pos_iff_ne_zero.1 i.timeoutMs.2
  whole := by
    simp only [callOf, callWith, List.forall_mem_cons]
    exact ⟨hp, hcwd, hargs⟩

/-- **A linter that is launched** ends its attempt in a call only by a fault of the system, if its
working directory and its arguments hold no U+0000. -/
theorem ensures_perform_launch (hcwd : '\x00' ∉ i.cwd.text.toList) (hargs : ∀ s ∈ l.args i, '\x00' ∉ s.toList) :
    (perform h l i).Ensures (.exactly (Launch.launch t environment)) fun x =>
      ∀ f, x = .error (.call f) → f.bySystem = true := by
  rw [perform_tool]
  split
  · next hfault =>
    obtain ⟨q, -, rfl⟩ := locate_eq_error_iff.1 hfault
    exact fun f hf => by cases hf
  · exact fun f hf => by cases hf
  next p hlocate =>
  have hlocated := locate_eq_ok_iff.1 hlocate
  have hp := Host.whole_of_locate hlocated
  refine (ensures_probe_launch hcwd hp).bind ?_
  rintro _ ⟨answer, rfl⟩ (f | o) ha
  · intro f' hf
    cases hf
    exact (Launch.bySystem_of_launch ha.symm).2 (sensible_callOf hp hcwd hargs)
  · refine (ending_conclude ⟨p, hlocated, ha⟩ _).mono fun x hx f hf => ?_
    subst hf
    cases hx

end Attempt
end LintMerge
