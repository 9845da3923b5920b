/-
# Where the tools of a batch come from

A registry may hold tools of its own, with programs, arguments and functions that the built-in tools
do not have. The calls of an attempt are made for its tool: one asks the program for its version and
one runs it, with the arguments that the tool makes. A batch makes the calls of its probes and of
its attempts and no others, on every schedule, so every program that it runs is run for a tool of
the registry, of a linter that it was asked for; and a linter that the registry has no tool of is
refused before anything is done (`Batch.supplied_iff`). Finding out about one linter obeys the
registry in the same way.

An empty registry is the exception. It is taken for one that was not given, so the built-in tools
come in its place: no linter that is known is refused, and their programs are run
(`Batch.not_supplied`).
-/

import LintMerge.Linter.Detection
import LintMerge.Proofs.Batch.Containment

namespace LintMerge

namespace Registry

variable {reg : Registry}

theorem mem_linters_builtin (l : Linter) : l ∈ builtin.linters := List.mem_map_of_mem (mem_builtin l)

/-- No tool has the name of a linter exactly when none of its tools is registered. -/
theorem get?_name_eq_none_iff {l : Linter} : reg.get? l.name = none ↔ l ∉ reg.linters := by
  constructor
  · intro hnone hl
    obtain ⟨k, hk, rfl⟩ := List.mem_map.1 hl
    rw [get?_name hk] at hnone
    cases hnone
  · intro hl
    rw [get?, List.find?_eq_none]
    intro k hk hname
    have heq := congrArg Linter.ofName? (of_decide_eq_true hname)
    rw [Linter.ofName?_name, Linter.ofName?_name] at heq
    exact hl (List.mem_map.2 ⟨k, hk, Option.some.inj heq⟩)

/-- What is picked by the names of linters are registered tools of theirs, one for each. -/
theorem of_pick_eq_ok {ls : List Linter} {ts : List Tool} (h : reg.pick (ls.map Linter.name) = .ok ts) :
    ts.map (·.linter) = ls ∧ ∀ k ∈ ts, k ∈ reg.tools := by
  have hpicked := List.forall₂_map_left_iff.1 (Faulty.mapM_eq_ok.1 h)
  clear h
  induction hpicked with
  | nil => exact ⟨rfl, fun _ hk => absurd hk List.not_mem_nil⟩
  | @cons l k ls ts hk _ ih =>
    have hget : reg.get? l.name = some k := by
      cases hfound : reg.get? l.name with
      | none =>
        rw [hfound] at hk
        cases hk
      | some k' =>
        rw [hfound] at hk
        cases hk
        rfl
    have hlinter : k.linter = l := by
      have heq := congrArg Linter.ofName? (name_of_get? hget)
      rwa [Linter.ofName?_name, Linter.ofName?_name, Option.some.injEq] at heq
    exact ⟨by rw [List.map_cons, hlinter, ih.1], List.forall_mem_cons.2 ⟨mem_of_get? hget, ih.2⟩⟩

/-- **Some linter is not picked** exactly when no tool of one that is asked for is registered. -/
theorem pick_eq_error_iff {ls : List Linter} :
    (∃ name, reg.pick (ls.map Linter.name) = .error name) ↔ ∃ l ∈ ls, l ∉ reg.linters := by
  cases hpick : reg.pick (ls.map Linter.name) with
  | error name =>
    obtain ⟨name', hname, hfault⟩ := Faulty.exists_of_mapM_eq_error hpick
    obtain ⟨l, hl, rfl⟩ := List.mem_map.1 hname
    refine iff_of_true ⟨name, rfl⟩ ⟨l, hl, get?_name_eq_none_iff.1 ?_⟩
    split at hfault
    · cases hfault
    · assumption
  | ok ts =>
    obtain ⟨rfl, hts⟩ := of_pick_eq_ok hpick
    refine iff_of_false (fun ⟨_, h⟩ => nomatch h) ?_
    rintro ⟨l, hl, hnot⟩
    obtain ⟨k, hk, rfl⟩ := List.mem_map.1 hl
    exact hnot (List.mem_map_of_mem (hts k hk))

theorem orBuiltin_of_eq_nil (h : reg.tools = []) : reg.orBuiltin = builtin := by
  rw [orBuiltin, h]
  rfl

theorem orBuiltin_of_ne_nil (h : reg.tools ≠ []) : reg.orBuiltin = reg := by
  rw [orBuiltin, if_neg (by simpa using h)]

end Registry

namespace Attempt

variable {h : Host} {k : Tool} {i : Invocation} {P : Call → Prop}

/-- A call that asks the program of a tool for its version. -/
def AsksVersion (h : Host) (k : Tool) (cwd : Path) (bin : Option String) (c : Call) : Prop :=
  ∃ p, locate h k cwd bin = .ok (some p) ∧ c = ⟨p.path, k.versionArgs, versionTimeoutMs, cwd⟩

/-- A call that is made for a tool: its program is asked for its version, or it is run with the
arguments that the tool makes. -/
def MadeFor (h : Host) (k : Tool) (i : Invocation) (c : Call) : Prop :=
  AsksVersion h k i.cwd i.bin c ∨
    ∃ p args, locate h k i.cwd i.bin = .ok (some p) ∧ k.args i = .ok args ∧ c = callWith args i p

theorem onlyCalls_probe {cwd : Path} {bin : Option String} {p : Program}
    (hp : locate h k cwd bin = .ok (some p)) :
    (probe k cwd p).OnlyCalls (AsksVersion h k cwd bin) := by
  refine ⟨⟨p, hp, rfl⟩, ?_⟩
  rintro (f | o)
  · dsimp only
    split <;> exact trivial
  · exact trivial

/-- What an answer comes to is told without a call. -/
theorem onlyCalls_conclude (k : Tool) (i : Invocation) (version : String) (o : Outcome) :
    (conclude k i version o).OnlyCalls P := by
  unfold conclude read accept failing
  repeat' split
  all_goals exact trivial

/-- **The calls of an attempt are made for its tool.** -/
theorem onlyCalls_perform (h : Host) (k : Tool) (i : Invocation) :
    (perform h k i).OnlyCalls (MadeFor h k i) := by
  rw [perform]
  split
  · exact trivial
  · split <;> exact trivial
  · next p hlocate =>
    refine ((onlyCalls_probe hlocate).mono fun _ => .inl).bind ?_
    rintro (f | answer)
    · exact trivial
    · dsimp only
      rw [launch]
      split
      · exact trivial
      · next args hargs =>
        refine ⟨.inr ⟨p, args, hlocate, hargs, rfl⟩, ?_⟩
        rintro (f | o)
        · exact trivial
        · exact onlyCalls_conclude k i _ o

end Attempt

namespace Batch

variable {h : Host} {t : Stamp} {o : Options} {r : Runner} {ts : List Tool}

/-- A call that a batch makes for a tool. -/
def CallFor (h : Host) (o : Options) (k : Tool) (c : Call) : Prop :=
  Attempt.MadeFor h k (o.invocationFor k.linter.name) c

theorem onlyCalls_probe (h : Host) (o : Options) (k : Tool) :
    (probe h o k).OnlyCalls (CallFor h o k) := by
  have havailable :
      (Attempt.available h k o.cwd (o.binOf k.linter.name)).OnlyCalls (CallFor h o k) := by
    rw [Attempt.available]
    split
    · exact trivial
    · exact trivial
    · next hlocate =>
      exact ((Attempt.onlyCalls_probe hlocate).mono fun _ => .inl).bind fun _ => trivial
  refine havailable.bind ?_
  rintro (f | b)
  · exact trivial
  · exact trivial

theorem onlyCalls_attempt (h : Host) (o : Options) (k : Tool) :
    (attempt h o k).OnlyCalls (CallFor h o k) := by
  refine (Attempt.onlyCalls_perform h k (o.invocationFor k.linter.name)).bind fun outcome => ?_
  cases outcome <;> exact trivial

theorem onlyCalls_select {P : Call → Prop} (flags : List (Tool × Bool)) :
    (select flags).OnlyCalls P := by
  induction flags with
  | nil => exact trivial
  | cons f rest ih =>
    obtain ⟨k, b⟩ := f
    cases b with
    | true => exact ih.bind fun _ => trivial
    | false => exact ih

/-- The calls that are left to a batch of some tools are made for them. -/
def Phase.Obeys (h : Host) (o : Options) (r : Runner) (ts : List Tool) : Phase → Prop
  | .probing ts' crew => ts' ⊆ ts ∧ ∀ j ∈ crew, j.OnlyCalls fun c => ∃ k ∈ ts, CallFor h o k c
  | .selecting _ job =>
    job.Ensures r (· ⊆ ts) ∧ job.OnlyCalls fun c => ∃ k ∈ ts, CallFor h o k c
  | .attempting _ crew => ∀ j ∈ crew, j.OnlyCalls fun c => ∃ k ∈ ts, CallFor h o k c
  | .concluding _ job => job.OnlyCalls fun c => ∃ k ∈ ts, CallFor h o k c

/-- **A move makes a call for one of the tools**, or none, and leaves those that are. -/
theorem Phase.Obeys.moves {p p' : Phase} {ss : List (Job.Step Event)} (hp : p.Obeys h o r ts)
    (hm : Moves h t o r p ss p') :
    (∀ c ∈ Job.calls ss, ∃ k ∈ ts, CallFor h o k c) ∧ p'.Obeys h o r ts := by
  cases hm with
  | probe hs =>
    obtain ⟨hcalls, hcrew⟩ := Crew.onlyCalls_takes hp.2 hs
    exact ⟨hcalls, hp.1, hcrew⟩
  | @probed ts' flags =>
    refine ⟨fun c hc => absurd hc List.not_mem_nil, ?_, onlyCalls_select _⟩
    refine (ensures_select _).mono fun answering hanswering => ?_
    rw [hanswering]
    exact List.Subset.trans (answered_sublist ts' flags).subset hp.1
  | select hs =>
    obtain ⟨hcalls, hjob⟩ := hp.2.takes hs
    exact ⟨hcalls, hp.1.takes hs, hjob⟩
  | @selected flags ts' =>
    refine ⟨fun c hc => absurd hc List.not_mem_nil, fun j hj => ?_⟩
    obtain ⟨k, hk, rfl⟩ := List.mem_map.1 hj
    exact (onlyCalls_attempt h o k).mono fun c hc => ⟨k, hp.1 hk, hc⟩
  | attempt hs => exact Crew.onlyCalls_takes hp hs
  | attempted => exact ⟨fun c hc => absurd hc List.not_mem_nil, trivial⟩
  | conclude hs => exact Job.OnlyCalls.takes hp hs

/-- **All calls of a schedule are made for the tools.** The induction is on the moves. -/
theorem Phase.Obeys.goes {p p' : Phase} {ss : List (Job.Step Event)} (hp : p.Obeys h o r ts)
    (hg : Goes h t o r p ss p') : ∀ c ∈ Job.calls ss, ∃ k ∈ ts, CallFor h o k c := by
  induction hg with
  | nowhere => exact fun c hc => absurd hc List.not_mem_nil
  | move hm _ ih =>
    obtain ⟨hcalls, hp'⟩ := hp.moves hm
    intro c hc
    rw [Job.calls_append, List.mem_append] at hc
    exact hc.elim (hcalls c) (ih hp' c)

theorem obeys_initial (h : Host) (t : Stamp) (o : Options) (r : Runner) (ts : List Tool) :
    (initial h t o ts).Obeys h o r ts := by
  rw [initial]
  split
  · exact trivial
  · refine ⟨List.Subset.refl ts, fun j hj => ?_⟩
    obtain ⟨k, hk, rfl⟩ := List.mem_map.1 hj
    exact (onlyCalls_probe h o k).mono fun c hc => ⟨k, hk, hc⟩

/-- A batch is refused exactly when it asks for a linter that its registry has no tool of. -/
theorem start_eq_error_iff (h : Host) (reg : Registry) (t : Stamp) (hfiles : o.files ≠ []) :
    (∃ name, start h reg t o = .error name) ↔ ∃ l ∈ o.linters, l ∉ reg.orBuiltin.linters := by
  rw [← Registry.pick_eq_error_iff, start, chosen, if_neg (by simpa using hfiles)]
  cases reg.orBuiltin.pick (o.linters.map Linter.name) <;> simp [Except.map]

/-- A batch that is not refused starts out with tools of its registry, one for each linter that it
asks for. -/
theorem of_start_eq_ok {reg : Registry} {p : Phase} (hfiles : o.files ≠ [])
    (hp : start h reg t o = .ok p) : ∃ ts : List Tool, p = initial h t o ts ∧
      ts.map (·.linter) = o.linters ∧ ∀ k ∈ ts, k ∈ reg.orBuiltin.tools := by
  rw [start, chosen, if_neg (by simpa using hfiles)] at hp
  cases hpick : reg.orBuiltin.pick (o.linters.map Linter.name) with
  | error name =>
    rw [hpick] at hp
    cases hp
  | ok ts =>
    rw [hpick] at hp
    exact ⟨ts, (Except.ok.inj hp).symm, Registry.of_pick_eq_ok hpick⟩

/-- **No call is made for a linter that was not asked for**, nor for a tool of another registry. -/
theorem call_of_start {reg : Registry} {p p' : Phase} {ss : List (Job.Step Event)}
    (hp : start h reg t o = .ok p) (hg : Goes h t o r p ss p') :
    ∀ c ∈ Job.calls ss, ∃ k ∈ reg.orBuiltin.tools, k.linter ∈ o.linters ∧ CallFor h o k c := by
  intro c hc
  by_cases hfiles : o.files = []
  · rw [start_of_nothing h reg t hfiles] at hp
    cases hp
    obtain ⟨_, hnone, -⟩ := (obeys_initial h t o r []).goes hg c hc
    cases hnone
  · obtain ⟨ts, rfl, hlinters, hts⟩ := of_start_eq_ok hfiles hp
    obtain ⟨k, hk, hcall⟩ := (obeys_initial h t o r ts).goes hg c hc
    exact ⟨k, hts k hk, hlinters ▸ List.mem_map_of_mem hk, hcall⟩

/-- A registry that is supplied to a batch is where all its tools come from: the batch is refused,
before any step of it, exactly when the registry has no tool of a linter that is asked for, and every
call of every schedule is made for a tool that it has. -/
structure Supplied (h : Host) (reg : Registry) (t : Stamp) (o : Options) (r : Runner) : Prop where
  refused : (∃ name, start h reg t o = .error name) ↔ ∃ l ∈ o.linters, l ∉ reg.linters
  called : ∀ p ss p', start h reg t o = .ok p → Goes h t o r p ss p' →
    ∀ c ∈ Job.calls ss, ∃ k ∈ reg.tools, k.linter ∈ o.linters ∧ CallFor h o k c

theorem supplied_of_orBuiltin {reg : Registry} (hfiles : o.files ≠ []) (hreg : reg.orBuiltin = reg) :
    Supplied h reg t o r where
  refused := by rw [start_eq_error_iff h reg t hfiles, hreg]
  called := by
    intro p ss p' hp hg
    have hcalls := call_of_start hp hg
    rwa [hreg] at hcalls

/-- Where nothing is asked for, every registry is obeyed. -/
theorem supplied_of_linters_eq_nil {reg : Registry} (hfiles : o.files ≠ []) (hnone : o.linters = []) :
    Supplied h reg t o r where
  refused := by
    rw [start_eq_error_iff h reg t hfiles, hnone]
    simp
  called := by
    intro p ss p' hp hg c hc
    obtain ⟨k, -, hk, -⟩ := call_of_start hp hg c hc
    rw [hnone] at hk
    cases hk

/-- An empty registry refuses no linter that is asked for, though it has no tool of any. -/
theorem Supplied.linters_eq_nil {reg : Registry} (hsupplied : Supplied h reg t o r)
    (hfiles : o.files ≠ []) (hempty : reg.tools = []) : o.linters = [] := by
  by_contra hasked
  obtain ⟨l, hl⟩ := List.exists_mem_of_ne_nil _ hasked
  have hnone : l ∉ reg.linters := by
    rw [Registry.linters, hempty]
    exact List.not_mem_nil
  obtain ⟨l', -, hl'⟩ := (start_eq_error_iff h reg t hfiles).1 (hsupplied.refused.2 ⟨l, hl, hnone⟩)
  rw [Registry.orBuiltin_of_eq_nil hempty] at hl'
  exact hl' (Registry.mem_linters_builtin l')

end Batch

namespace Detection

variable {h : Host} {root : Path} {packages : Option (List String)}

/-- The program of a tool that is looked up is the one that is located. -/
theorem locate_of_lookUp {k : Tool} {program : Option Program} {config : Option Path}
    (hfound : lookUp h root k = .ok (program, config)) :
    Attempt.locate h k root none = .ok program := by
  obtain ⟨program', hprogram, hfound⟩ := Faulty.bind_eq_ok.1 hfound
  obtain ⟨config', -, hfound⟩ := Faulty.bind_eq_ok.1 hfound
  cases hfound
  exact hprogram

theorem onlyCalls_detect (h : Host) (root : Path) (packages : List String) (k : Tool) :
    (detect h root packages k).OnlyCalls (Attempt.AsksVersion h k root none) := by
  rw [detect]
  split
  · exact trivial
  · exact trivial
  · next hfound => exact (Attempt.onlyCalls_probe (locate_of_lookUp hfound)).bind fun _ => trivial

theorem onlyCalls_detectIn (h : Host) (root : Path) (packages : Option (List String)) (k : Tool) :
    (detectIn h root packages k).OnlyCalls (Attempt.AsksVersion h k root none) := by
  cases packages with
  | some packages => exact onlyCalls_detect h root packages k
  | none =>
    rw [detectIn]
    split
    · exact trivial
    · exact trivial
    · exact onlyCalls_detect h root _ k

/-- A registry that is supplied is where the tool of a linter is found: a name is refused exactly when
the registry does not have it, and all calls ask the tool that it has under this name for its
version. -/
structure Supplied (h : Host) (reg : Registry) (root : Path) (packages : Option (List String))
    (name : String) : Prop where
  refused : (∃ n, detectNamed h reg root packages name = .error n) ↔ reg.get? name = none
  called : ∀ job, detectNamed h reg root packages name = .ok job →
    ∃ k ∈ reg.tools, k.linter.name = name ∧ job.OnlyCalls (Attempt.AsksVersion h k root none)

theorem supplied_of_orBuiltin {reg : Registry} {name : String}
    (hreg : reg.orBuiltin.get? name = reg.get? name) : Supplied h reg root packages name where
  refused := by
    rw [detectNamed, hreg]
    cases reg.get? name <;> simp
  called := by
    intro job hjob
    rw [detectNamed, hreg] at hjob
    split at hjob
    · next k hk =>
      cases hjob
      exact ⟨k, Registry.mem_of_get? hk, Registry.name_of_get? hk, onlyCalls_detectIn h root _ k⟩
    · cases hjob

/-- An empty registry refuses only names that no built-in tool has, though it lacks them all. -/
theorem Supplied.get?_builtin {reg : Registry} {name : String}
    (hsupplied : Supplied h reg root packages name) (hempty : reg.tools = []) :
    Registry.builtin.get? name = none := by
  have hmissing : reg.get? name = none := by rw [Registry.get?, hempty, List.find?_nil]
  obtain ⟨n, hn⟩ := hsupplied.refused.2 hmissing
  rw [detectNamed, Registry.orBuiltin_of_eq_nil hempty] at hn
  split at hn
  · cases hn
  · next hget => exact hget

end Detection

namespace Batch

/-- **The registry that is supplied is obeyed unless it is empty.** A batch over some files takes
its tools from a registry, whatever tools these are, exactly when the registry is not empty or no
linter is asked for, and so does finding out about one linter, unless no built-in tool has its name.
An empty registry does what that of all built-in tools does. -/
theorem supplied_iff (h : Host) (reg : Registry) (t : Stamp) (o : Options) (r : Runner) (root : Path)
    (packages : Option (List String)) (name : String) (hfiles : o.files ≠ []) :
    (Supplied h reg t o r ↔ reg.tools ≠ [] ∨ o.linters = []) ∧
    (Detection.Supplied h reg root packages name ↔
      reg.tools ≠ [] ∨ Registry.builtin.get? name = none) ∧
    (reg.tools = [] → start h reg t o = start h .builtin t o ∧
      Detection.detectNamed h reg root packages name =
        Detection.detectNamed h .builtin root packages name) := by
  refine ⟨⟨fun hsupplied => ?_, ?_⟩, ⟨fun hsupplied => ?_, ?_⟩, fun hempty => ?_⟩
  · exact or_iff_not_imp_left.2 fun hreg => hsupplied.linters_eq_nil hfiles (not_not.1 hreg)
  · rintro (hreg | hnone)
    · exact supplied_of_orBuiltin hfiles (Registry.orBuiltin_of_ne_nil hreg)
    · exact supplied_of_linters_eq_nil hfiles hnone
  · exact or_iff_not_imp_left.2 fun hreg => hsupplied.get?_builtin (not_not.1 hreg)
  · rintro (hreg | hnone)
    · exact Detection.supplied_of_orBuiltin (by rw [Registry.orBuiltin_of_ne_nil hreg])
    · refine Detection.supplied_of_orBuiltin ?_
      by_cases hempty : reg.tools = []
      · rw [Registry.orBuiltin_of_eq_nil hempty, hnone, Registry.get?, hempty, List.find?_nil]
      · rw [Registry.orBuiltin_of_ne_nil hempty]
  · have hbuiltin : Registry.builtin.orBuiltin = .builtin := rfl
    rw [start, start, chosen, chosen, Detection.detectNamed, Detection.detectNamed,
      Registry.orBuiltin_of_eq_nil hempty, hbuiltin]
    exact ⟨rfl, rfl⟩

namespace Sample

/-- A tool of eslint that is not the built-in one: it has another program, asks it for its version in
another way, and cannot make its arguments. -/
def otherTool : Tool where
  linter := .eslint
  displayName := "Another"
  binaries := ["tsc"]
  ownArgs _ := .error Tool.noPrograms
  parse _ _ := .ok (.ok [])
  failure? _ := .ok none
  versionArgs := ["-v"]

/-- A registry of this tool alone. -/
def others : Registry := { tools := [otherTool] }

/-- The options of a batch that asks for eslint alone. -/
def eslintOnly : Options := { options with linters := [.eslint], nodup := by decide }

end Sample

/-- The hypothesis of `supplied_iff` holds of a batch that is supplied with another tool of eslint.
It runs the program of this tool, and no call is made for the built-in one. -/
theorem supplied_iff_other : Sample.eslintOnly.files ≠ [] ∧
    Supplied (Sample.host .codePoints) Sample.others default Sample.eslintOnly (.exactly Sample.idle) ∧
    ∀ c, CallFor (Sample.host .codePoints) Sample.eslintOnly Sample.otherTool c →
      c.command = "/bin/tsc" ∧ c.args = ["-v"] ∧
        ¬ CallFor (Sample.host .codePoints) Sample.eslintOnly Linter.eslint c := by
  have hfiles : Sample.eslintOnly.files ≠ [] := by decide
  refine ⟨hfiles, (supplied_iff _ _ _ _ _ ⟨1, ["project"]⟩ none "eslint" hfiles).1.2
    (.inl (List.cons_ne_nil _ _)), fun c hc => ?_⟩
  have hother : Attempt.locate (Sample.host .codePoints) Sample.otherTool ⟨1, ["project"]⟩ none =
      .ok (some ⟨"tsc", "/bin/tsc", .searched⟩) := by decide +kernel
  have hbuiltin : Attempt.locate (Sample.host .codePoints) Linter.eslint ⟨1, ["project"]⟩ none =
      .ok (some ⟨"eslint", "/bin/eslint", .searched⟩) := by decide +kernel
  obtain ⟨p, hp, rfl⟩ | ⟨_, _, -, hargs, -⟩ := hc
  · cases hother.symm.trans hp
    refine ⟨rfl, rfl, ?_⟩
    rintro (⟨p', hp', hcall⟩ | ⟨p', _, hp', -, hcall⟩) <;>
      · cases hbuiltin.symm.trans hp'
        have hcommand : "/bin/tsc" = "/bin/eslint" := congrArg Call.command hcall
        exact absurd hcommand (by decide)
  · cases hargs

/-- **An empty registry lacks no linter.** A batch that asks for linters is not refused. -/
theorem not_supplied : ¬ ∀ (h : Host) (reg : Registry) (t : Stamp) (o : Options) (r : Runner),
    o.files ≠ [] → Supplied h reg t o r := by
  intro h
  have hsupplied := h (Sample.host .codePoints) {} default Sample.options (.exactly Sample.idle)
    (by decide)
  obtain ⟨name, hname⟩ := hsupplied.refused.2 (by decide)
  have hstart : start (Sample.host .codePoints) {} default Sample.options =
      .ok (initial (Sample.host .codePoints) default Sample.options Sample.options.tools) := rfl
  cases hstart.symm.trans hname

end Batch
end LintMerge
