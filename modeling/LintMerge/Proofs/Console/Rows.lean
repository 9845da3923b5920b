/-
# The rows of a display

A display of progress is told that linters are skipped, started and finished, by workers that take
turns in any order. With rows, each start has a row of its own, which is settled by what is told of
its linter until the linter starts again (`Progress.rowsOf`). So where each linter starts and then
finishes once, whatever else is told in between, each has one row, in the order in which they
started, and all are settled by their own runs (`Progress.rowsOf_of_shuffles`). A display of lines
only tells of starts and of linters that are skipped, and a quiet one tells nothing.

A display may also keep for each name where its last row is, and settle the row at this place. The
place of a name stays that of its last row whatever it is told, so its rows are the same ones
(`Progress.Register.rows_foldl_take`).
-/

import Mathlib.Data.List.Induction
import Mathlib.Data.List.Nodup
import Mathlib.Data.List.Perm.Subperm
import LintMerge.Console.Progress
import LintMerge.Proofs.Process.Crews

namespace LintMerge
namespace Progress

/-- What a display is told. -/
inductive Call where
  | skipped (name : String)
  | started (name : String)
  | finished (name : String) (success : Bool)
  deriving DecidableEq

namespace Call

/-- The linter that a call tells is started. -/
def started? : Call → Option String
  | started name => some name
  | _ => none

/-- Whether a call tells how a linter that runs is getting on. -/
def isAbout (name : String) : Call → Bool
  | skipped _ => false
  | started n => n = name
  | finished n _ => n = name

/-- The line of a call on a display of lines. -/
def line? : Call → Option String
  | skipped name => some ("lintmesh: " ++ name ++ " not available, skipping")
  | started name => some ("lintmesh: running " ++ name ++ "...")
  | finished _ _ => none

/-- The calls of a linter that runs. -/
def ofRun (run : String × Bool) : List Call := [started run.1, finished run.1 run.2]

/-- A linter that runs is told of by its own calls only. -/
theorem filter_isAbout_ofRun (name : String) (run : String × Bool) :
    (ofRun run).filter (isAbout name) = if run.1 = name then ofRun run else [] := by
  by_cases h : run.1 = name <;> simp [ofRun, isAbout, h]

end Call

/-- A display that is told one thing more. -/
def take (p : Progress) : Call → Progress
  | .skipped name => p.skipped name
  | .started name => p.started name
  | .finished name success => p.finished name success

/-- A display that is told some things, one after the other. -/
def takeAll (p : Progress) (calls : List Call) : Progress := calls.foldl take p

/-- How a row is settled. -/
def verdict (success : Bool) : RowStatus := if success then .done else .failed

/-- What becomes of the status of a linter's row: it is settled by each call that tells that the
linter is finished, until the linter starts again and has another row. -/
def outcome (name : String) (s : RowStatus) : List Call → RowStatus
  | [] => s
  | .skipped _ :: rest => outcome name s rest
  | .started n :: rest => if n = name then s else outcome name s rest
  | .finished n success :: rest => outcome name (if n = name then verdict success else s) rest

/-- The rows that calls make: one for each start, with what becomes of its status. -/
def rowsOf : List Call → List (String × RowStatus)
  | [] => []
  | .skipped _ :: rest => rowsOf rest
  | .started n :: rest => (n, outcome n .running rest) :: rowsOf rest
  | .finished _ _ :: rest => rowsOf rest

variable {p : Progress} {calls : List Call} {name : String} {success : Bool} {s : RowStatus}
  {rows : List (String × RowStatus)}

theorem takeAll_concat (p : Progress) (calls : List Call) (c : Call) :
    p.takeAll (calls ++ [c]) = (p.takeAll calls).take c := by
  rw [takeAll, List.foldl_append]
  rfl

/-- The rows have the names of the linters that are started, in their order. -/
theorem names_rowsOf (calls : List Call) :
    (rowsOf calls).map (·.1) = calls.filterMap Call.started? := by
  induction calls with
  | nil => rfl
  | cons c rest ih =>
    cases c with
    | skipped n => exact ih
    | started n => exact congrArg (n :: ·) ih
    | finished n success => exact ih

theorem mem_names_rowsOf : name ∈ (rowsOf calls).map (·.1) ↔ .started name ∈ calls := by
  rw [names_rowsOf, List.mem_filterMap]
  constructor
  · rintro ⟨c, hc, hname⟩
    cases c with
    | started n => rwa [← Option.some.inj hname]
    | skipped n => cases hname
    | finished n success => cases hname
  · exact fun hc => ⟨_, hc, rfl⟩

/-- A row is settled unless a later one has its name. -/
theorem settleLast_cons (row : String × RowStatus) (rows : List (String × RowStatus)) :
    settleLast name s (row :: rows) =
      if row.1 = name ∧ name ∉ rows.map (·.1) then (row.1, s) :: rows
      else row :: settleLast name s rows := by
  have hlater : (!rows.any fun r => r.1 = name) = true ↔ name ∉ rows.map (·.1) := by
    rw [Bool.not_eq_true', List.any_eq_false, List.mem_map]
    simp only [decide_eq_true_eq, not_exists, not_and]
  simp only [settleLast, hlater]

/-- A name without a row is settled by nothing. -/
theorem settleLast_of_notMem (h : name ∉ rows.map (·.1)) : settleLast name s rows = rows := by
  induction rows with
  | nil => rfl
  | cons row rest ih =>
    rw [List.map_cons, List.mem_cons, not_or] at h
    rw [settleLast_cons, if_neg fun hn => h.1 hn.1.symm, ih h.2]

/-- What is told of others, and that a linter starts, changes the status of no row before. -/
theorem outcome_concat_of_ne {c : Call} (hc : ∀ success, c ≠ .finished name success) :
    outcome name s (calls ++ [c]) = outcome name s calls := by
  induction calls generalizing s with
  | nil =>
    cases c with
    | skipped n => rfl
    | started n => exact ite_self s
    | finished n success => exact if_neg fun hn => hc success (congrArg (Call.finished · success) hn)
  | cons c' rest ih =>
    cases c' with
    | skipped n => exact ih
    | started n => exact congrArg (fun s' => if n = name then s else s') ih
    | finished n success => exact ih

/-- Once a linter has started again, its row before is left alone. -/
theorem outcome_concat_of_mem (h : .started name ∈ calls) (c : Call) :
    outcome name s (calls ++ [c]) = outcome name s calls := by
  induction calls generalizing s with
  | nil => cases h
  | cons c' rest ih =>
    cases c' with
    | skipped n => exact ih ((List.mem_cons.1 h).resolve_left (by rintro ⟨⟩))
    | started n =>
      by_cases hn : n = name
      · rw [List.cons_append, outcome, outcome, if_pos hn, if_pos hn]
      · rw [List.cons_append, outcome, outcome, if_neg hn, if_neg hn]
        exact ih ((List.mem_cons.1 h).resolve_left fun heq => hn (Call.started.inj heq).symm)
    | finished n success => exact ih ((List.mem_cons.1 h).resolve_left (by rintro ⟨⟩))

/-- The last row of a linter is settled when it is finished. -/
theorem outcome_concat_finished (h : .started name ∉ calls) :
    outcome name s (calls ++ [.finished name success]) = verdict success := by
  induction calls generalizing s with
  | nil => exact if_pos rfl
  | cons c' rest ih =>
    rw [List.mem_cons, not_or] at h
    cases c' with
    | skipped n => exact ih h.2
    | started n =>
      rw [List.cons_append, outcome, if_neg fun hn => h.1 (congrArg Call.started hn.symm)]
      exact ih h.2
    | finished n success => exact ih h.2

theorem rowsOf_concat_skipped (calls : List Call) (name : String) :
    rowsOf (calls ++ [.skipped name]) = rowsOf calls := by
  induction calls with
  | nil => rfl
  | cons c rest ih =>
    cases c with
    | skipped n => exact ih
    | started n => rw [List.cons_append, rowsOf, rowsOf, ih, outcome_concat_of_ne (by rintro _ ⟨⟩)]
    | finished n success => exact ih

theorem rowsOf_concat_started (calls : List Call) (name : String) :
    rowsOf (calls ++ [.started name]) = rowsOf calls ++ [(name, .running)] := by
  induction calls with
  | nil => rfl
  | cons c rest ih =>
    cases c with
    | skipped n => exact ih
    | started n =>
      rw [List.cons_append, rowsOf, rowsOf, ih, outcome_concat_of_ne (by rintro _ ⟨⟩), List.cons_append]
    | finished n success => exact ih

/-- **A linter that is finished** settles its last row, and no other one. -/
theorem rowsOf_concat_finished (calls : List Call) (name : String) (success : Bool) :
    rowsOf (calls ++ [.finished name success]) = settleLast name (verdict success) (rowsOf calls) := by
  induction calls with
  | nil => rfl
  | cons c rest ih =>
    cases c with
    | skipped n => exact ih
    | started n =>
      rw [List.cons_append, rowsOf, rowsOf, ih, settleLast_cons]
      by_cases hn : n = name ∧ name ∉ (rowsOf rest).map (·.1)
      · obtain ⟨rfl, hlast⟩ := hn
        rw [if_pos ⟨rfl, hlast⟩, outcome_concat_finished (mt mem_names_rowsOf.2 hlast),
          settleLast_of_notMem hlast]
      · have hsame : outcome n .running (rest ++ [.finished name success]) =
            outcome n .running rest := by
          by_cases hname : n = name
          · subst hname
            exact outcome_concat_of_mem (mem_names_rowsOf.1 (not_not.1 fun hlast => hn ⟨rfl, hlast⟩)) _
          · exact outcome_concat_of_ne fun success' heq => hname (Call.finished.inj heq).1.symm
        rw [if_neg hn, hsame]
    | finished n success => exact ih

theorem mode_take (p : Progress) (c : Call) : (p.take c).mode = p.mode := by
  cases c with
  | skipped n =>
    rw [take, skipped]
    split <;> rfl
  | started n =>
    rw [take, started]
    split <;> rfl
  | finished n success =>
    rw [take, finished]
    split <;> rfl

theorem mode_takeAll (p : Progress) (calls : List Call) : (p.takeAll calls).mode = p.mode := by
  induction calls using List.reverseRecOn with
  | nil => rfl
  | append_singleton calls c ih => rw [takeAll_concat, mode_take, ih]

/-- **Rows are those that the calls make**, whatever a display of rows is told. -/
theorem rows_takeAll (calls : List Call) : ((start true false).takeAll calls).rows = rowsOf calls := by
  induction calls using List.reverseRecOn with
  | nil => rfl
  | append_singleton calls c ih =>
    have hmode : ((start true false).takeAll calls).mode = .rows := mode_takeAll _ _
    rw [takeAll_concat]
    cases c with
    | skipped n =>
      rw [take, skipped, if_neg (by rw [hmode]; decide), rowsOf_concat_skipped]
      exact ih
    | started n => rw [take, started, hmode, rowsOf_concat_started, ← ih]
    | finished n success =>
      rw [take, finished, if_pos hmode, rowsOf_concat_finished, ← ih]
      rfl

section Places

/-- A display of rows that keeps the place of the last row of each name. -/
structure Register where
  rows : List (String × RowStatus) := []
  place : String → Option Nat := fun _ => none

/-- A register that is told one thing more. Only a name that has a place is settled. -/
def Register.take (r : Register) : Call → Register
  | .skipped _ => r
  | .started name =>
    { rows := r.rows ++ [(name, .running)], place := Function.update r.place name (some r.rows.length) }
  | .finished name success =>
    match r.place name with
    | none => r
    | some i => { r with rows := r.rows.modify i fun row => (row.1, verdict success) }

/-- The place of the last row of a name. -/
def last? (name : String) : List (String × RowStatus) → Option Nat
  | [] => none
  | row :: rest =>
    match last? name rest with
    | some i => some (i + 1)
    | none => if row.1 = name then some 0 else none

/-- Each name leads to its last row. -/
def Register.Linked (r : Register) : Prop := ∀ name, r.place name = last? name r.rows

theorem last?_eq_none_iff : last? name rows = none ↔ name ∉ rows.map (·.1) := by
  induction rows with
  | nil => simp [last?]
  | cons row rest ih =>
    rw [last?, List.map_cons, List.mem_cons, not_or]
    cases hrest : last? name rest with
    | none => simp [ih.1 hrest, eq_comm]
    | some i =>
      have hmem : name ∈ rest.map (·.1) := not_not.1 fun hn => by
        rw [ih.2 hn] at hrest
        cases hrest
      simp [hmem]

/-- A new row is the last one of its name. -/
theorem last?_concat (n : String) :
    last? name (rows ++ [(n, s)]) = if name = n then some rows.length else last? name rows := by
  induction rows with
  | nil => simp [last?, eq_comm]
  | cons row rest ih =>
    rw [List.cons_append, last?, ih]
    by_cases hn : name = n
    · rw [if_pos hn, if_pos hn]
      rfl
    · rw [if_neg hn, if_neg hn, last?]

/-- Where rows are settles no name. -/
theorem last?_modify (i : Nat) :
    last? name (rows.modify i fun row => (row.1, s)) = last? name rows := by
  induction rows generalizing i with
  | nil => cases i <;> rfl
  | cons row rest ih =>
    cases i with
    | zero => rfl
    | succ i => rw [List.modify_succ_cons, last?, last?, ih]

/-- **The last row of a name** is the one at its place. -/
theorem settleLast_eq_modify (name : String) (s : RowStatus) (rows : List (String × RowStatus)) :
    settleLast name s rows =
      match last? name rows with
      | none => rows
      | some i => rows.modify i fun row => (row.1, s) := by
  induction rows with
  | nil => rfl
  | cons row rest ih =>
    rw [settleLast_cons, last?, ih]
    cases hrest : last? name rest with
    | none =>
      rw [last?_eq_none_iff] at hrest
      by_cases hrow : row.1 = name <;> simp [hrow, hrest]
    | some i =>
      have hmem : name ∈ rest.map (·.1) := not_not.1 fun hn => by
        rw [last?_eq_none_iff.2 hn] at hrest
        cases hrest
      simp [hmem]

/-- **A register makes the same rows.** Each call keeps names linked to their last rows, and settles
the row of its linter through this link. -/
theorem Register.rows_foldl_take (calls : List Call) :
    (calls.foldl take {}).Linked ∧
      (calls.foldl take {}).rows = ((start true false).takeAll calls).rows := by
  induction calls using List.reverseRecOn with
  | nil => exact ⟨fun _ => rfl, rfl⟩
  | append_singleton calls c ih =>
    obtain ⟨hlinked, hrows⟩ := ih
    rw [rows_takeAll] at hrows ⊢
    rw [List.foldl_append, List.foldl_cons, List.foldl_nil]
    generalize calls.foldl take {} = r at hlinked hrows ⊢
    cases c with
    | skipped name => exact ⟨hlinked, hrows.trans (rowsOf_concat_skipped calls name).symm⟩
    | started name =>
      refine ⟨fun n => ?_, ?_⟩
      · show Function.update r.place name (some r.rows.length) n =
          last? n (r.rows ++ [(name, .running)])
        rw [Function.update_apply, last?_concat, hlinked n]
      · rw [take, rowsOf_concat_started, hrows]
    | finished name success =>
      rw [rowsOf_concat_finished, ← hrows, settleLast_eq_modify, take, hlinked name]
      cases last? name r.rows with
      | none => exact ⟨hlinked, rfl⟩
      | some i => exact ⟨fun n => (hlinked n).trans (last?_modify i).symm, rfl⟩

end Places

/-- Only what is told of a linter settles its row. -/
theorem outcome_filter (calls : List Call) :
    outcome name s (calls.filter (·.isAbout name)) = outcome name s calls := by
  induction calls generalizing s with
  | nil => rfl
  | cons c rest ih =>
    cases c with
    | skipped n => exact ih
    | started n =>
      by_cases hn : n = name
      · rw [List.filter_cons_of_pos (by simpa [Call.isAbout] using hn), outcome, outcome, ih]
      · rw [List.filter_cons_of_neg (by simpa [Call.isAbout] using hn), outcome, if_neg hn, ih]
    | finished n success =>
      by_cases hn : n = name
      · rw [List.filter_cons_of_pos (by simpa [Call.isAbout] using hn), outcome, outcome, ih]
      · rw [List.filter_cons_of_neg (by simpa [Call.isAbout] using hn), outcome, if_neg hn, ih]

/-- Each row is that of a start. -/
theorem of_mem_rowsOf {row : String × RowStatus} (h : row ∈ rowsOf calls) :
    ∃ front rest, calls = front ++ .started row.1 :: rest ∧ row.2 = outcome row.1 .running rest := by
  induction calls with
  | nil => cases h
  | cons c rest ih =>
    have hlater (h : row ∈ rowsOf rest) : ∃ front rest', c :: rest = front ++ .started row.1 :: rest' ∧
        row.2 = outcome row.1 .running rest' := by
      obtain ⟨front, rest', rfl, hrow⟩ := ih h
      exact ⟨c :: front, rest', rfl, hrow⟩
    cases c with
    | skipped n => exact hlater h
    | started n =>
      rcases List.mem_cons.1 h with rfl | h
      · exact ⟨[], rest, rfl, rfl⟩
      · exact hlater h
    | finished n success => exact hlater h

section Shuffled

variable {runs : List (String × Bool)} {skips : List String}

/-- The calls of linters that run, and of those that are skipped, one linter after the other. -/
def callsOf (runs : List (String × Bool)) (skips : List String) : List (List Call) :=
  runs.map Call.ofRun ++ skips.map fun name => [.skipped name]

theorem mem_of_shuffles (h : Shuffles (callsOf runs skips) calls) {c : Call} (hc : c ∈ calls) :
    (∃ run ∈ runs, c ∈ Call.ofRun run) ∨ ∃ name ∈ skips, c = .skipped name := by
  obtain ⟨told, htold, hmem⟩ := List.mem_flatten.1 (h.perm.mem_iff.1 hc)
  rcases List.mem_append.1 htold with hruns | hskips
  · obtain ⟨run, hrun, rfl⟩ := List.mem_map.1 hruns
    exact .inl ⟨run, hrun, hmem⟩
  · obtain ⟨name, hname, rfl⟩ := List.mem_map.1 hskips
    exact .inr ⟨name, hname, List.mem_singleton.1 hmem⟩

/-- Of a linter that does not run nothing is told but that it is skipped. -/
theorem filter_isAbout_of_notMem (h : Shuffles (callsOf runs skips) calls)
    (hname : name ∉ runs.map (·.1)) : calls.filter (·.isAbout name) = [] := by
  refine List.filter_eq_nil_iff.2 fun c hc hkept => ?_
  rcases mem_of_shuffles h hc with ⟨run, hrun, hmem⟩ | ⟨n, -, rfl⟩
  · have hne : run.1 ≠ name := fun heq => hname (List.mem_map.2 ⟨run, hrun, heq⟩)
    have hown := List.mem_filter.2 ⟨hmem, hkept⟩
    rw [Call.filter_isAbout_ofRun, if_neg hne] at hown
    exact List.not_mem_nil hown
  · cases hkept

/-- **Of a linter that runs** it is told that it starts and then how it finishes, and nothing else,
whatever is told of others in between. -/
theorem filter_isAbout_of_shuffles (hnames : (runs.map (·.1)).Nodup)
    (h : Shuffles (callsOf runs skips) calls) {run : String × Bool} (hrun : run ∈ runs) :
    calls.filter (·.isAbout run.1) = Call.ofRun run := by
  induction runs generalizing calls with
  | nil => cases hrun
  | cons first runs ih =>
    obtain ⟨hfirst, hnames⟩ := List.nodup_cons.1 hnames
    rw [callsOf, List.map_cons, List.cons_append] at h
    cases h with
    | cons hrest hshuffle =>
      have habout := hshuffle.filter (·.isAbout run.1)
      rw [Call.filter_isAbout_ofRun] at habout
      rcases List.mem_cons.1 hrun with rfl | hrun
      · rwa [filter_isAbout_of_notMem hrest hfirst, Shuffle.nil_right_iff, if_pos rfl] at habout
      · have hne : first.1 ≠ run.1 := fun heq => hfirst (List.mem_map.2 ⟨run, hrun, heq.symm⟩)
        rwa [if_neg hne, Shuffle.nil_left_iff, ih hnames hrest hrun] at habout

/-- What is picked from a shuffle is what is picked from its calls, in some order. -/
theorem filterMap_of_shuffles (h : Shuffles (callsOf runs skips) calls) (f : Call → Option String) :
    (calls.filterMap f).Perm ((runs.flatMap fun run => (Call.ofRun run).filterMap f) ++
      skips.filterMap fun name => f (.skipped name)) := by
  have hflat : (callsOf runs skips).flatten = runs.flatMap Call.ofRun ++ skips.map Call.skipped := by
    rw [callsOf, List.flatten_append, ← List.flatMap_def, ← List.flatMap_def]
    exact congrArg _ (List.flatMap_pure_eq_map _ _)
  have hperm := h.perm.filterMap f
  rwa [hflat, List.filterMap_append, List.filterMap_flatMap, List.filterMap_map] at hperm

/-- The linters that are started are those that run. -/
theorem started_of_shuffles (h : Shuffles (callsOf runs skips) calls) :
    (calls.filterMap Call.started?).Perm (runs.map (·.1)) := by
  have hperm := filterMap_of_shuffles h Call.started?
  have hskips : skips.filterMap (fun name => Call.started? (.skipped name)) = [] :=
    List.filterMap_eq_nil_iff.2 fun _ _ => rfl
  rw [hskips, List.append_nil] at hperm
  exact hperm.trans (.of_eq (List.flatMap_pure_eq_map _ _))

/-- One line is told of each linter that runs, and of each that is skipped. -/
theorem lines_of_shuffles (h : Shuffles (callsOf runs skips) calls) :
    (calls.filterMap Call.line?).Perm
      ((runs.map fun run => "lintmesh: running " ++ run.1 ++ "...") ++
        skips.map fun name => "lintmesh: " ++ name ++ " not available, skipping") := by
  have hperm := filterMap_of_shuffles h Call.line?
  have hskips : skips.filterMap (fun name => Call.line? (.skipped name)) =
      skips.map fun name => "lintmesh: " ++ name ++ " not available, skipping" := by
    rw [← List.filterMap_eq_map]
    rfl
  rw [hskips] at hperm
  exact hperm.trans (.append_right _ (.of_eq (List.flatMap_pure_eq_map _ _)))

/-- A row of a linter that runs tells how it has finished. -/
theorem row_of_shuffles (hnames : (runs.map (·.1)).Nodup) (h : Shuffles (callsOf runs skips) calls)
    {row : String × RowStatus} (hrow : row ∈ rowsOf calls) :
    row ∈ runs.map fun run => (run.1, verdict run.2) := by
  obtain ⟨front, rest, hcalls, hstatus⟩ := of_mem_rowsOf hrow
  have hname : row.1 ∈ runs.map (·.1) := by
    rw [← (started_of_shuffles h).mem_iff, ← names_rowsOf]
    exact List.mem_map_of_mem hrow
  obtain ⟨run, hrun, hname⟩ := List.mem_map.1 hname
  have habout := filter_isAbout_of_shuffles hnames h hrun
  rw [hcalls, List.filter_append, List.filter_cons_of_pos (by simpa [Call.isAbout] using hname.symm)]
    at habout
  -- the start of the row is the one start that is told of the linter, so its end comes after
  have hrest : rest.filter (·.isAbout run.1) = [.finished run.1 run.2] := by
    cases hfront : front.filter (·.isAbout run.1) with
    | nil =>
      rw [hfront] at habout
      exact (List.cons.inj habout).2
    | cons c more =>
      rw [hfront] at habout
      have hmem : Call.started row.1 ∈ [Call.finished run.1 run.2] := by
        rw [← (List.cons.inj habout).2]
        exact List.mem_append_right more List.mem_cons_self
      simp at hmem
  refine List.mem_map.2 ⟨run, hrun, Prod.ext hname ?_⟩
  rw [hstatus, ← outcome_filter, ← hname, hrest]
  exact (if_pos rfl).symm

/-- **Rows settle.** Where each linter starts and finishes once, its row tells how it has finished. -/
theorem rowsOf_of_shuffles (hnames : (runs.map (·.1)).Nodup)
    (h : Shuffles (callsOf runs skips) calls) :
    (rowsOf calls).Perm (runs.map fun run => (run.1, verdict run.2)) := by
  have hperm := started_of_shuffles h
  rw [← names_rowsOf] at hperm
  have hnodup : (rowsOf calls).Nodup := List.Nodup.of_map _ (hperm.nodup_iff.2 hnames)
  have hsubperm := List.subperm_of_subset hnodup fun _ hrow => row_of_shuffles hnames h hrow
  have hlength := hperm.length_eq
  rw [List.length_map, List.length_map] at hlength
  exact hsubperm.perm_of_length_le (by rw [List.length_map]; exact Nat.le_of_eq hlength.symm)

end Shuffled

theorem take_of_lines (hp : p.mode = .lines) (c : Call) :
    p.take c = { p with written := p.written ++ c.line?.toList } := by
  obtain ⟨mode, rows, written⟩ := p
  obtain rfl : mode = .lines := hp
  cases c with
  | skipped n => rfl
  | started n => rfl
  | finished n success => rw [Call.line?, Option.toList_none, List.append_nil]; rfl

/-- **A display of lines** writes the line of each call that has one, and makes no row. -/
theorem takeAll_of_lines (hp : p.mode = .lines) (calls : List Call) :
    p.takeAll calls = { p with written := p.written ++ calls.filterMap Call.line? } := by
  induction calls using List.reverseRecOn with
  | nil => rw [List.filterMap_nil, List.append_nil]; rfl
  | append_singleton calls c ih =>
    have hlast : [c].filterMap Call.line? = c.line?.toList := by cases c <;> rfl
    rw [takeAll_concat, ih, take_of_lines (by exact hp), List.filterMap_append, List.append_assoc,
      hlast]

/-- **A quiet display** stays as it is. -/
theorem takeAll_of_quiet (hp : p.mode = .quiet) (calls : List Call) : p.takeAll calls = p := by
  induction calls with
  | nil => rfl
  | cons c rest ih =>
    have htake : p.take c = p := by
      cases c with
      | skipped n => exact if_pos hp
      | started n => rw [take, started, hp]
      | finished n success => exact if_neg (by rw [hp]; decide)
    rw [takeAll, List.foldl_cons, htake]
    exact ih

/-- A display has rows on an interactive console, unless it is quiet. -/
theorem mode_start_eq_rows_iff (interactive quiet : Bool) :
    (start interactive quiet).mode = .rows ↔ interactive = true ∧ quiet = false := by
  cases interactive <;> cases quiet <;> decide

/-- A linter that has not started has no row to settle. -/
theorem finished_of_notMem (interactive quiet : Bool) (h : .started name ∉ calls) :
    ((start interactive quiet).takeAll calls).finished name success =
      (start interactive quiet).takeAll calls := by
  rw [finished]
  split
  · next hmode =>
    rw [mode_takeAll] at hmode
    obtain ⟨rfl, rfl⟩ := (mode_start_eq_rows_iff interactive quiet).1 hmode
    rw [rows_takeAll, settleLast_of_notMem (mt mem_names_rowsOf.1 h), ← rows_takeAll]
  · rfl

/-- **What each display comes to**, whatever the order in which it is told of some linters. With rows
there is one row for each linter that ran, in the order in which they started, settled by how the
linter finished, and a register has the same rows with each name linked to its last one; without, one
line for each linter that ran and one for each that was skipped, in the order in which they were told;
and a quiet display is as it was at the start. What is told of the end of a linter that has not
started changes none of them. -/
theorem settled_of_shuffles (runs : List (String × Bool)) (skips : List String) (calls : List Call)
    (hnames : (runs.map (·.1)).Nodup) (h : Shuffles (callsOf runs skips) calls) :
    (((start true false).takeAll calls).rows.map (·.1) = calls.filterMap Call.started? ∧
      ((start true false).takeAll calls).rows.Perm
        (runs.map fun run => (run.1, if run.2 then .done else .failed)) ∧
      (∀ row ∈ ((start true false).takeAll calls).rows, row.2.isSettled = true) ∧
      (calls.foldl Register.take {}).Linked ∧
      (calls.foldl Register.take {}).rows = ((start true false).takeAll calls).rows) ∧
    (((start false false).takeAll calls).rows = [] ∧
      ((start false false).takeAll calls).written = calls.filterMap Call.line? ∧
      ((start false false).takeAll calls).written.Perm
        ((runs.map fun run => "lintmesh: running " ++ run.1 ++ "...") ++
          skips.map fun name => "lintmesh: " ++ name ++ " not available, skipping")) ∧
    (∀ interactive, ((start interactive true).takeAll calls) = start interactive true) ∧
    ∀ interactive quiet told name success, .started name ∉ told →
      ((start interactive quiet).takeAll told).finished name success =
        (start interactive quiet).takeAll told := by
  have hlines : (start false false).takeAll calls =
      { start false false with written := calls.filterMap Call.line? } := takeAll_of_lines rfl calls
  have hregister := Register.rows_foldl_take calls
  rw [rows_takeAll] at hregister ⊢
  rw [hlines]
  refine ⟨⟨names_rowsOf calls, rowsOf_of_shuffles hnames h, fun row hrow => ?_, hregister⟩,
    ⟨rfl, rfl, lines_of_shuffles h⟩, fun interactive => takeAll_of_quiet rfl calls,
    fun interactive quiet told name success => finished_of_notMem interactive quiet⟩
  obtain ⟨run, -, rfl⟩ := List.mem_map.1 ((rowsOf_of_shuffles hnames h).mem_iff.1 hrow)
  cases run.2 <;> rfl

/-- Two linters take turns while a third one is skipped. -/
theorem settled_of_shuffles_sample :
    ([("eslint", true), ("tsc", false)].map (·.1)).Nodup ∧
      Shuffles (callsOf [("eslint", true), ("tsc", false)] ["biome"])
        [.started "tsc", .skipped "biome", .started "eslint", .finished "tsc" false,
          .finished "eslint" true] ∧
      ((start true false).takeAll [.started "tsc", .skipped "biome", .started "eslint",
        .finished "tsc" false, .finished "eslint" true]).rows.Perm
          [("eslint", .done), ("tsc", .failed)] := by
  have hnames : ([("eslint", true), ("tsc", false)].map (·.1)).Nodup := by decide
  have hskip : Shuffles [[Call.skipped "biome"]] [.skipped "biome"] := .cons .nil (.left .nil)
  have hshuffle : Shuffles (callsOf [("eslint", true), ("tsc", false)] ["biome"])
      [.started "tsc", .skipped "biome", .started "eslint", .finished "tsc" false,
        .finished "eslint" true] :=
    .cons (.cons hskip (.left (.right (.left .nil)))) (.right (.right (.left (.right (.left .nil)))))
  exact ⟨hnames, hshuffle, (settled_of_shuffles _ _ _ hnames hshuffle).1.2.1⟩

end Progress
end LintMerge
