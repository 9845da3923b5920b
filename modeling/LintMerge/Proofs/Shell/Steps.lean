/-
# The steps of a script

A script is run within a number of steps, because it may go on for ever; one that takes too many
has run out of time. The number is none that a script could notice: what comes to its end within
some steps comes to the same end, and has printed the same, within any more of them
(`Shell.start_of_le`).

One more step is given to all functions of the shell at once, because they call each other
(`Shell.Stable`). What a function makes of the courses that it calls for is one after the other
(`Course.Grows.bind`), or it hangs on one of them (`Course.Grows.of`).
-/

import LintMerge.Shell.Run

namespace LintMerge
namespace Shell

/-- A course that came to its end before time ran out. -/
def Course.Settles : Course → Prop
  | .ok _ => True
  | .error e => e.1 ≠ .outOfTime

/-- A course that another is, if it settles. -/
def Course.Grows (c c' : Course) : Prop := c.Settles → c' = c

namespace Course

variable {c c' : Course} {k k' : Machine → Course}

theorem Grows.refl (c : Course) : c.Grows c := fun _ => rfl

theorem Grows.outOfTime (m : Machine) (c : Course) : Grows (.error (.outOfTime, m)) c :=
  fun h => absurd rfl h

theorem Grows.bind (h : c.Grows c') (hk : ∀ m, (k m).Grows (k' m)) :
    Grows (Except.bind c k) (Except.bind c' k') := by
  cases c with
  | error e => exact fun hsettles => by rw [h hsettles]; rfl
  | ok m =>
    rw [h trivial]
    exact hk m

theorem Grows.eq_ok {m : Machine} (h : c.Grows c') (hc : c = .ok m) : c' = .ok m := by
  rw [h (by rw [hc]; trivial), hc]

theorem Grows.eq_error {e : Ending × Machine} (h : c.Grows c') (hc : c = .error e)
    (he : e.1 ≠ .outOfTime) : c' = .error e := by
  rw [h (by rw [hc]; exact he), hc]

/-- A course that hangs on another grows with it, if it is not settled before. -/
theorem Grows.of {d d' : Course} (h : c.Grows c') (heq : c' = c → d' = d) (hd : d.Settles → c.Settles) :
    d.Grows d' := fun hsettles => heq (h (hd hsettles))

theorem Grows.led (h : c.Grows c') (m : Machine) (rs : List Redirection) :
    (c.led m rs).Grows (c'.led m rs) := by
  refine h.of (fun heq => by rw [heq]) fun hsettles => ?_
  cases c with
  | error e => exact hsettles
  | ok now => exact trivial

end Course

open Course

/-- An end that another is, unless time ran out. -/
def EndsAlike (x x' : Ending × Machine) : Prop := x.1 ≠ .outOfTime → x' = x

theorem Course.Grows.ended {c c' : Course} (h : c.Grows c') : EndsAlike (ended c) (ended c') := by
  intro hne
  have hsettles : c.Settles := by
    cases c with
    | ok m => exact trivial
    | error e => exact hne
  rw [h hsettles]

/-- What came to its end within some steps comes to the same end with one step more. -/
structure Stable (n : Nat) : Prop where
  all : ∀ m cs, (runAll n m cs).Grows (runAll (n + 1) m cs)
  one : ∀ m c, (run n m c).Grows (run (n + 1) m c)
  branch : ∀ m clauses otherwise, (runBranch n m clauses otherwise).Grows (runBranch (n + 1) m clauses otherwise)
  loop : ∀ m condition body expected status, (runLoop n m condition body expected status).Grows
    (runLoop (n + 1) m condition body expected status)
  each : ∀ m name values body, (runEach n m name values body).Grows (runEach (n + 1) m name values body)
  named : ∀ m line name args, (runNamed n m line name args).Grows (runNamed (n + 1) m line name args)
  program : ∀ m line name args, (runProgram n m line name args).Grows (runProgram (n + 1) m line name args)
  start : ∀ m e, EndsAlike (start n m e) (start (n + 1) m e)
  shell : ∀ m args, EndsAlike (startShell n m args) (startShell (n + 1) m args)
  text : ∀ m s, EndsAlike (runText n m s) (runText (n + 1) m s)

variable {n : Nat}

theorem runAll_cons (n : Nat) (m : Machine) (c : Command) (rest : List Command) :
    runAll (n + 1) m (c :: rest) = Except.bind (run n m c) fun m => runAll n m rest := by
  rw [runAll]
  cases run n m c <;> rfl

theorem Stable.runAll (h : Stable n) (m : Machine) (cs : List Command) :
    (runAll (n + 1) m cs).Grows (runAll (n + 2) m cs) := by
  cases cs with
  | nil => exact .refl _
  | cons c rest =>
    rw [runAll_cons, runAll_cons]
    exact (h.one m c).bind fun m => h.all m rest

theorem Stable.runBranch (h : Stable n) (m : Machine) (clauses : List (List Command × List Command))
    (otherwise : List Command) :
    (runBranch (n + 1) m clauses otherwise).Grows (runBranch (n + 2) m clauses otherwise) := by
  cases clauses with
  | nil => exact h.all _ _
  | cons clause rest =>
    obtain ⟨condition, body⟩ := clause
    have heq (n : Nat) : Shell.runBranch (n + 1) m ((condition, body) :: rest) otherwise =
        Except.bind (Shell.runAll n m condition) fun m =>
          if m.status = 0 then Shell.runAll n m body else Shell.runBranch n m rest otherwise := by
      rw [Shell.runBranch]
      cases Shell.runAll n m condition <;> rfl
    rw [heq, heq]
    refine (h.all m condition).bind fun m => ?_
    split
    · exact h.all m body
    · exact h.branch m rest otherwise

theorem Stable.runLoop (h : Stable n) (m : Machine) (condition body : List Command) (expected : Bool)
    (status : Nat) : (runLoop (n + 1) m condition body expected status).Grows
      (runLoop (n + 2) m condition body expected status) := by
  have heq (n : Nat) : Shell.runLoop (n + 1) m condition body expected status =
      Except.bind (Shell.runAll n m condition) fun m =>
        if decide (m.status = 0) = expected then
          Except.bind (Shell.runAll n m body) fun m => Shell.runLoop n m condition body expected m.status
        else .ok { m with status } := by
    rw [Shell.runLoop]
    cases Shell.runAll n m condition with
    | error e => rfl
    | ok m =>
      dsimp only [Except.bind]
      split
      · cases Shell.runAll n m body <;> rfl
      · rfl
  rw [heq, heq]
  refine (h.all m condition).bind fun m => ?_
  split
  · exact (h.all m body).bind fun m => h.loop m condition body expected m.status
  · exact .refl _

theorem Stable.runEach (h : Stable n) (m : Machine) (name : String) (values : List (List Char))
    (body : List Command) :
    (runEach (n + 1) m name values body).Grows (runEach (n + 2) m name values body) := by
  cases values with
  | nil => exact .refl _
  | cons value rest =>
    have heq (n : Nat) : Shell.runEach (n + 1) m name (value :: rest) body =
        Except.bind (Shell.runAll n (m.set name value) body) fun m => Shell.runEach n m name rest body := by
      rw [Shell.runEach]
      cases Shell.runAll n (m.set name value) body <;> rfl
    rw [heq, heq]
    exact (h.all _ body).bind fun m => h.each m name rest body

theorem Stable.run (h : Stable n) (m : Machine) (c : Command) :
    (run (n + 1) m c).Grows (run (n + 2) m c) := by
  cases c with
  | simple line settings words redirections =>
    unfold Shell.run
    dsimp only
    split
    · exact .refl _
    · exact .refl _
    · next name args hexec hfields =>
      refine Course.Grows.led ?_ m redirections
      intro hsettles
      split at hsettles
      · next after hafter => rw [(h.named _ _ _ _).eq_ok hafter]
      · next e he => rw [(h.named _ _ _ _).eq_error he hsettles]
  | redirected c redirections => exact (h.one _ c).led m redirections
  | choice subject clauses =>
    unfold Shell.run
    dsimp only
    split
    · exact h.all _ _
    · exact .refl _
  | apart body =>
    refine (h.all m body).of (fun heq => by unfold Shell.run; rw [heq]) fun hsettles => ?_
    unfold Shell.run at hsettles
    cases hinner : Shell.runAll n m body with
    | ok inner => exact trivial
    | error e =>
      obtain ⟨ending, inner⟩ := e
      rw [hinner] at hsettles
      cases ending with
      | exited code => exact Ending.noConfusion
      | killed signal => exact hsettles
      | outOfTime => exact hsettles
  | branch clauses otherwise => exact h.branch m clauses otherwise
  | loop condition body expected => exact h.loop m condition body expected 0
  | each name items body => exact h.each _ name _ body
  | group body => exact h.all m body
  | both first second =>
    have heq (n : Nat) : Shell.run (n + 1) m (.both first second) =
        Except.bind (Shell.run n m first) fun m => if m.status = 0 then Shell.run n m second else .ok m := by
      rw [Shell.run]
      cases Shell.run n m first <;> rfl
    rw [heq, heq]
    refine (h.one m first).bind fun m => ?_
    split
    · exact h.one m second
    · exact .refl _
  | either first second =>
    have heq (n : Nat) : Shell.run (n + 1) m (.either first second) =
        Except.bind (Shell.run n m first) fun m => if m.status = 0 then .ok m else Shell.run n m second := by
      rw [Shell.run]
      cases Shell.run n m first <;> rfl
    rw [heq, heq]
    refine (h.one m first).bind fun m => ?_
    split
    · exact .refl _
    · exact h.one m second
  | negation c =>
    have heq (n : Nat) : Shell.run (n + 1) m (.negation c) = Except.bind (Shell.run n m c) fun m =>
        .ok { m with status := if m.status = 0 then 1 else 0 } := by
      rw [Shell.run]
      cases Shell.run n m c <;> rfl
    rw [heq, heq]
    exact (h.one m c).bind fun m => .refl _

theorem Stable.runProgram (h : Stable n) (m : Machine) (line : Nat) (name : String)
    (args : List (List Char)) :
    (runProgram (n + 1) m line name args).Grows (runProgram (n + 2) m line name args) := by
  unfold Shell.runProgram
  dsimp only
  split
  · next path e hfound =>
    intro hsettles
    have hend : (Shell.start n (m.child path args) e).1 ≠ .outOfTime := fun hout => by
      rw [if_pos hout] at hsettles
      exact hsettles rfl
    rw [h.start _ _ hend]
  · exact .refl _
  · exact .refl _
  · exact .refl _

theorem Stable.runNamed (h : Stable n) (m : Machine) (line : Nat) (name : String)
    (args : List (List Char)) :
    (runNamed (n + 1) m line name args).Grows (runNamed (n + 2) m line name args) := by
  unfold Shell.runNamed
  dsimp only
  split
  · exact .refl _
  · split
    case h_9 =>
      split
      · exact .refl _
      · next program args _ =>
        intro hsettles
        split at hsettles
        · next after hafter => rw [(h.program _ _ _ _).eq_ok hafter]
        · next e he => rw [(h.program _ _ _ _).eq_error he hsettles]
    case h_10 => exact h.program m line name args
    all_goals exact .refl _

theorem Stable.runText (h : Stable n) (m : Machine) (s : List Char) :
    EndsAlike (runText (n + 1) m s) (runText (n + 2) m s) := by
  unfold Shell.runText
  split
  · exact (h.all m _).ended
  · exact fun _ => rfl

theorem Stable.starts (h : Stable n) (m : Machine) (e : Executable) :
    EndsAlike (Shell.start (n + 1) m e) (Shell.start (n + 2) m e) := by
  cases e with
  | script path interpreter argument text =>
    unfold Shell.start
    split
    · dsimp only
      split
      · exact h.start _ _
      · exact fun _ => rfl
    · exact h.text _ _
    · exact fun _ => rfl
  | system name =>
    unfold Shell.start
    split
    · exact h.shell m m.args
    · exact fun _ => rfl

theorem Stable.startShells (h : Stable n) (m : Machine) (args : List (List Char)) :
    EndsAlike (Shell.startShell (n + 1) m args) (Shell.startShell (n + 2) m args) := by
  cases args with
  | nil => exact fun _ => rfl
  | cons file rest =>
    unfold Shell.startShell
    split
    · split
      · split
        · exact fun _ => rfl
        · exact h.text _ _
      · exact h.shell m rest
    · split
      · exact h.text _ _
      · exact fun _ => rfl

/-- **One step more** changes nothing that came to its end. -/
theorem stable (n : Nat) : Stable n := by
  induction n with
  | zero =>
    exact {
      all := fun m _ => .outOfTime m _
      one := fun m _ => .outOfTime m _
      branch := fun m _ _ => .outOfTime m _
      loop := fun m _ _ _ _ => .outOfTime m _
      each := fun m _ _ _ => .outOfTime m _
      named := fun m _ _ _ => .outOfTime m _
      program := fun m _ _ _ => .outOfTime m _
      start := fun _ _ hne => absurd rfl hne
      shell := fun _ _ hne => absurd rfl hne
      text := fun _ _ hne => absurd rfl hne }
  | succ n ih =>
    exact {
      all := ih.runAll
      one := ih.run
      branch := ih.runBranch
      loop := ih.runLoop
      each := ih.runEach
      named := ih.runNamed
      program := ih.runProgram
      start := ih.starts
      shell := ih.startShells
      text := ih.runText }

/-- **A program that comes to its end** comes to the same end however many more steps it may take. -/
theorem start_of_le {n n' : Nat} (hle : n ≤ n') {m : Machine} {e : Executable}
    (hend : (start n m e).1 ≠ .outOfTime) : start n' m e = start n m e := by
  induction hle with
  | refl => rfl
  | step _ ih => rw [(stable _).start m e (by rw [ih]; exact hend), ih]

end Shell
end LintMerge
