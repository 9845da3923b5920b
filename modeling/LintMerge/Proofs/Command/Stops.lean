/-
# What keeps the linters from being run

Before a linter is probed, the folder of the run is looked up, its configuration is loaded, the
settings are made of it and of the request, and the files are looked for. Each of these may stop
the command (`Command.Stopped`). Most problems are told to the user; some are faults that nothing
handles, and the program dies of them.

`Command.Escapes` lists these faults: the folder is reached through links that go in a circle, it or
a place at which configuration is looked for has a path that is too long, or a pattern of files is
refused. There are no others (`Command.stopped_unhandled_iff`). The parts are looked at one by one:
loading gives up such a path only for one of its places (`Config.tooLong_of_load`), the request is
refused with messages only (`Command.overrides_ne_unhandled`), and the search for files ends with a
line only when the line is refused as a pattern (`Tree.refused_of_files`).
-/

import LintMerge.Command.Lint
import LintMerge.Proofs.Config.Loading

namespace LintMerge

namespace Glob

/-- A line that is refused is refused as it stands. -/
theorem Pattern.eq_of_ofLine {line line' : String} (h : Pattern.ofLine line = .error line') :
    line' = line := by
  unfold Pattern.ofLine at h
  dsimp only at h
  split at h
  · cases h
  · cases h
  · cases h
  · split at h
    · exact (Except.error.inj h).symm
    · split at h
      · exact (Except.error.inj h).symm
      · cases h

/-- Patterns are refused for one of their lines. -/
theorem Spec.refused_of_build {patterns : List String} {line : String}
    (h : Spec.build patterns = .error line) : Pattern.ofLine line = .error line := by
  rcases Faulty.bind_eq_error.1 h with h | ⟨_, -, h⟩
  · obtain ⟨line', -, hline⟩ := Faulty.exists_of_mapM_eq_error h
    obtain rfl := Pattern.eq_of_ofLine hline
    exact hline
  · cases h

end Glob

namespace Tree

variable {t : Tree} {root : Path} {line : String}

theorem request_ne_badPattern {r : Request} {pattern : String} :
    t.request root r pattern ≠ .error (.badPattern line) := by
  intro h
  unfold request at h
  dsimp only at h
  repeat' split at h
  all_goals cases h

theorem foldlM_request_ne_badPattern {r : Request} {patterns : List String} :
    patterns.foldlM (t.request root) r ≠ .error (.badPattern line) := by
  induction patterns generalizing r with
  | nil =>
    intro h
    cases h
  | cons pattern rest ih =>
    intro h
    rw [List.foldlM_cons] at h
    rcases Faulty.bind_eq_error.1 h with h | ⟨_, -, h⟩
    · exact request_ne_badPattern h
    · exact ih h

/-- Files are not found because of a line that is refused. -/
theorem refused_of_files {patterns exclude fallback : List String}
    (h : t.files root patterns exclude fallback = .error (.badPattern line)) :
    Glob.Pattern.ofLine line = .error line := by
  rcases Faulty.bind_eq_error.1 h with h | ⟨r, -, h⟩
  · exact absurd h foldlM_request_ne_badPattern
  · rcases Faulty.bind_eq_error.1 h with h | ⟨excluded, -, h⟩
    · obtain ⟨line', hline, hfault⟩ := Faulty.mapError_eq_error.1 h
      cases hfault
      exact Glob.Spec.refused_of_build hline
    · rcases Faulty.bind_eq_error.1 h with h | ⟨_, -, h⟩
      · rw [search] at h
        split at h
        · cases h
        · cases hbuild : Glob.Spec.build r.globs with
          | ok wanted =>
            rw [hbuild] at h
            cases h
          | error line' =>
            rw [hbuild] at h
            cases h
            exact Glob.Spec.refused_of_build hbuild
      · cases h

end Tree

namespace Command

variable {h : Host} {workDir : Path} {q : LintRequest}

/-- The folder that is asked for. -/
def askedFor (workDir : Path) (cwd : Option String) : Path :=
  match cwd with
  | some s => workDir.join (Path.ofText s)
  | none => workDir

/-- A run of the linters is kept from being started. -/
inductive Stopped (h : Host) (workDir : Path) (q : LintRequest) : Stop → Prop where
  | settings {stop : Stop} (hstop : prepare h workDir q = .error stop) : Stopped h workDir q stop
  | files {s : Settings} {stop : Stop} (hs : prepare h workDir q = .ok s)
      (hstop : targets h s = .error stop) : Stopped h workDir q stop

/-- A run is kept from being started by what is wrong with its settings or its files. -/
theorem stopped_iff {stop : Stop} :
    Stopped h workDir q stop ↔ (prepare h workDir q).bind (targets h) = .error stop := by
  constructor
  · rintro (hstop | ⟨hs, hstop⟩)
    · rw [hstop]
      rfl
    · rw [hs]
      exact hstop
  · intro hstop
    rcases Faulty.bind_eq_error.1 hstop with hstop | ⟨s, hs, hstop⟩
    · exact .settings hstop
    · exact .files hs hstop

/-- A run is kept from being started by one thing. -/
theorem Stopped.unique {stop stop' : Stop} (hstop : Stopped h workDir q stop)
    (hstop' : Stopped h workDir q stop') : stop = stop' :=
  Except.error.inj ((stopped_iff.1 hstop).symm.trans (stopped_iff.1 hstop'))

/-- The faults that keep a run of the linters from being started and are not handled. -/
inductive Escapes (h : Host) (workDir : Path) (q : LintRequest) : Unhandled → Prop where
  /-- links lead in a circle on the way to the folder -/
  | loop (htrail : h.tree.trail (askedFor workDir q.cwd) = .error .tooManyLinks) :
      Escapes h workDir q (.linkLoop (h.tree.real (askedFor workDir q.cwd)))
  /-- the path of the folder is too long -/
  | root (htrail : h.tree.trail (askedFor workDir q.cwd) = .error .tooLong) :
      Escapes h workDir q (.tooLong (h.tree.real (askedFor workDir q.cwd)))
  /-- a place of the configuration has a path that is too long -/
  | place {root p : Path} (hroot : rootOf h workDir q.cwd = .ok root)
      (hload : Config.load h.tree root = .error (.tooLong p)) (hplace : p ∈ Config.places root)
      (hlong : h.tree.isTooLong p = true) : Escapes h workDir q (.tooLong p)
  /-- a pattern is refused for one of its lines -/
  | pattern {s : Settings} {line : String} (hs : prepare h workDir q = .ok s)
      (hfiles : h.tree.files s.cwd s.patterns s.excludes s.includes = .error (.badPattern line))
      (hline : Glob.Pattern.ofLine line = .error line) : Escapes h workDir q (.badPattern line)

/-- What a request says in the place of a configuration is refused with a message. -/
theorem overrides_ne_unhandled {f : Unhandled} : overrides q ≠ .error (.unhandled f) := by
  intro hq
  rcases Faulty.bind_eq_error.1 hq with hq | ⟨_, -, hq⟩
  · obtain ⟨_, -, hq⟩ := Faulty.exists_of_optionMapM_eq_error hq
    obtain ⟨_, -, hq⟩ := Faulty.mapError_eq_error.1 hq
    cases hq
  · rcases Faulty.bind_eq_error.1 hq with hq | ⟨_, -, hq⟩
    · obtain ⟨_, -, hq⟩ := Faulty.exists_of_optionMapM_eq_error hq
      split at hq <;> cases hq
    · cases hq

/-- Settings are missing because of a fault that is not handled only where a place of the
configuration has a path that is too long. -/
theorem settingsOf_eq_unhandled {root : Path} {f : Unhandled} :
    settingsOf h root q = .error (.unhandled f) ↔
      ∃ p, Config.load h.tree root = .error (.tooLong p) ∧ f = .tooLong p := by
  constructor
  · intro hq
    rcases Faulty.bind_eq_error.1 hq with hq | ⟨_, -, hq⟩
    · obtain ⟨fault, hfault, hq⟩ := Faulty.mapError_eq_error.1 hq
      split at hq
      · cases hq
        exact ⟨_, hfault, rfl⟩
      · cases hq
    · rcases Faulty.bind_eq_error.1 hq with hq | ⟨_, -, hq⟩
      · exact absurd hq overrides_ne_unhandled
      · split at hq <;> cases hq
  · rintro ⟨p, hload, rfl⟩
    exact Faulty.bind_eq_error.2 (.inl (Faulty.mapError_eq_error.2 ⟨_, hload, rfl⟩))

/-- The folder is missing because of a fault that is not handled where its path cannot be
followed. -/
theorem rootOf_eq_unhandled {cwd : Option String} {f : Unhandled} :
    rootOf h workDir cwd = .error (.unhandled f) ↔
      (h.tree.trail (askedFor workDir cwd) = .error .tooManyLinks ∧
          f = .linkLoop (h.tree.real (askedFor workDir cwd))) ∨
        (h.tree.trail (askedFor workDir cwd) = .error .tooLong ∧
          f = .tooLong (h.tree.real (askedFor workDir cwd))) := by
  -- the path that is asked for differs in the two cases, the rest does not
  cases cwd
  all_goals
    unfold rootOf askedFor
    dsimp only
    split
    · next htrail => simp [htrail, eq_comm]
    · next htrail => simp [htrail, eq_comm]
    · next hloop hlong =>
      refine iff_of_false ?_ ?_
      · split <;> exact fun hq => by cases hq
      · rintro (⟨htrail, -⟩ | ⟨htrail, -⟩)
        · exact hloop htrail
        · exact hlong htrail

/-- The files of a request are missing because of a fault that is not handled only where a pattern
is refused. -/
theorem targets_eq_unhandled {s : Settings} {f : Unhandled} :
    targets h s = .error (.unhandled f) ↔ ∃ line,
      h.tree.files s.cwd s.patterns s.excludes s.includes = .error (.badPattern line) ∧
        f = .badPattern line := by
  rw [targets, Faulty.mapError_eq_error]
  constructor
  · rintro ⟨fault, hfault, hq⟩
    split at hq
    · cases hq
    · cases hq
      exact ⟨_, hfault, rfl⟩
  · rintro ⟨line, hfiles, rfl⟩
    exact ⟨_, hfiles, rfl⟩

/-- **What is not handled.** A run of the linters is kept from being started by a fault that is not
handled exactly when it is one of those listed. -/
theorem stopped_unhandled_iff {f : Unhandled} :
    Stopped h workDir q (.unhandled f) ↔ Escapes h workDir q f := by
  constructor
  · rintro (hstop | ⟨hs, hstop⟩)
    · rcases Faulty.bind_eq_error.1 hstop with hroot | ⟨root, hroot, hstop⟩
      · rcases rootOf_eq_unhandled.1 hroot with ⟨htrail, rfl⟩ | ⟨htrail, rfl⟩
        · exact .loop htrail
        · exact .root htrail
      · obtain ⟨p, hload, rfl⟩ := settingsOf_eq_unhandled.1 hstop
        obtain ⟨hplace, hlong⟩ := Config.tooLong_of_load hload
        exact .place hroot hload hplace hlong
    · obtain ⟨line, hfiles, rfl⟩ := targets_eq_unhandled.1 hstop
      exact .pattern hs hfiles (Tree.refused_of_files hfiles)
  · rintro (htrail | htrail | ⟨hroot, hload, -, -⟩ | ⟨hs, hfiles, -⟩)
    · exact .settings (Faulty.bind_eq_error.2 (.inl (rootOf_eq_unhandled.2 (.inl ⟨htrail, rfl⟩))))
    · exact .settings (Faulty.bind_eq_error.2 (.inl (rootOf_eq_unhandled.2 (.inr ⟨htrail, rfl⟩))))
    · exact .settings (Faulty.bind_eq_error.2
        (.inr ⟨_, hroot, settingsOf_eq_unhandled.2 ⟨_, hload, rfl⟩⟩))
    · exact .files hs (targets_eq_unhandled.2 ⟨_, hfiles, rfl⟩)

end Command
end LintMerge
