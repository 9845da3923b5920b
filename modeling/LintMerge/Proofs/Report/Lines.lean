/-
# The lines of a compact report

A compact report tells each issue as `path:line:column severity rule: message` and then, after an
empty line, how many there are. It would have a line for each issue if none of these texts held a
line feed (`Report.LinedUp`), but nothing keeps one out of them: the message of a finding of the
type checker has one for each line that goes on with its header (`Batch.feeds_issue`), and a linter
that prints a document may tell anything. An issue takes as many lines as there are in it, and that
is all that can be said (`Batch.inevitably_linedUp`).
-/

import LintMerge.Proofs.Batch.Isolation
import LintMerge.Proofs.Json.Tokens
import LintMerge.Proofs.Output.Continuations
import LintMerge.Report.Compact

namespace LintMerge

open Text (splitOn)

namespace Styled

variable {s t : List Char}

@[simp] theorem plain_ofText (s : String) (base : Option Style) :
    (ofText s base).plain = printable s.toList := rfl

@[simp] theorem plain_append (t : Styled) (s : String) (style : Option Style) :
    (t.append s style).plain = t.plain ++ printable s.toList := by
  rw [append]
  split
  · next h =>
    rw [String.isEmpty_iff.1 h]
    exact (List.append_nil _).symm
  · rfl

theorem printable_append (s t : List Char) : printable (s ++ t) = printable s ++ printable t :=
  List.filter_append ..

/-- A line feed is not left out. -/
theorem count_printable (s : List Char) : (printable s).count '\n' = s.count '\n' :=
  List.count_filter (by decide)

/-- Texts on lines of their own are joined with line feeds. -/
theorem plain_foldl_joinTwo (t : Styled) (rest : List Styled) :
    (rest.foldl joinTwo t).plain = Text.joinWith ['\n'] (t.plain :: rest.map (·.plain)) := by
  induction rest generalizing t with
  | nil => rfl
  | cons u rest ih =>
    rw [List.foldl_cons, ih, List.map_cons, joinTwo]
    cases rest with
    | nil => simp [Text.joinWith]
    | cons v rest => simp [Text.joinWith]

theorem plain_joinLines (ts : List Styled) :
    (joinLines ts).plain = Text.joinWith ['\n'] (ts.map (·.plain)) := by
  cases ts with
  | nil => rfl
  | cons t rest => exact plain_foldl_joinTwo _ rest

/-- A text that stands on one line as it is: there is no line feed in it, and nothing is left out. -/
def Unbroken (s : List Char) : Prop := ∀ c ∈ s, c ≠ '\n' ∧ isControl c = false

instance (s : List Char) : Decidable (Unbroken s) := List.decidableBAll _ s

theorem unbroken_append : Unbroken (s ++ t) ↔ Unbroken s ∧ Unbroken t := List.forall_mem_append

theorem unbroken_iff : Unbroken s ↔ s.count '\n' = 0 ∧ printable s = s := by
  rw [List.count_eq_zero, printable, List.filter_eq_self]
  constructor
  · intro h
    exact ⟨fun hmem => (h _ hmem).1 rfl, fun c hc => by rw [(h c hc).2]; rfl⟩
  · rintro ⟨hfeed, hcontrol⟩ c hc
    exact ⟨fun heq => hfeed (heq ▸ hc), by simpa using hcontrol c hc⟩

theorem unbroken_toString (n : Nat) : Unbroken (toString n).toList := by
  intro c hc
  rw [Nat.toString_eq_repr, Nat.toList_repr] at hc
  have hdigit := Text.isAsciiDigit_of_mem_toDigits hc
  have hnone : ∀ m ∈ [7, 8, 10, 11, 12, 13], Text.isAsciiDigit (Char.ofNat m) = false := by decide
  have hc : c.toNat ∉ [7, 8, 10, 11, 12, 13] := fun hmem => by
    have hfalse := hnone _ hmem
    rw [Char.ofNat_toNat, hdigit] at hfalse
    cases hfalse
  simp only [List.mem_cons, List.not_mem_nil, or_false, not_or] at hc
  refine ⟨?_, by simp [isControl, hc]⟩
  rintro rfl
  exact hc.2.2.1 rfl

end Styled

open Styled (Unbroken printable)

namespace Issue

variable {i : Issue}

/-- What is told of an issue. -/
def said (i : Issue) : List Char :=
  s!"{i.path}:{i.span.line}:{i.span.column} {i.severity.name} {i.ruleId}: {i.message}".toList

/-- The line feeds in what is told of an issue. -/
def feeds (i : Issue) : Nat :=
  i.path.toList.count '\n' + i.ruleId.toList.count '\n' + i.message.toList.count '\n'

theorem plain_line (i : Issue) : i.line.plain = printable i.said := by
  simp only [line, said, Styled.plain_append, Styled.printable_append, String.toList_append,
    List.append_assoc, List.nil_append]
  rfl

/-- What stands between the path and the rule. -/
def middle (i : Issue) : List Char := s!":{i.span.line}:{i.span.column} {i.severity.name} ".toList

theorem said_eq (i : Issue) : i.said =
    i.path.toList ++ (i.middle ++ (i.ruleId.toList ++ (": ".toList ++ i.message.toList))) := by
  simp only [said, middle, String.toList_append, List.append_assoc]
  rfl

theorem unbroken_middle (i : Issue) : Unbroken i.middle := by
  have hname : Unbroken (toString i.severity.name).toList := by cases i.severity <;> decide
  simp only [middle, String.toList_append, Styled.unbroken_append, Styled.unbroken_toString, hname,
    and_true]
  decide

/-- An issue is told without a line feed when its path, its rule and its message have none. -/
theorem count_said (i : Issue) : i.said.count '\n' = i.feeds := by
  have hmiddle := (Styled.unbroken_iff.1 i.unbroken_middle).1
  have hcolon : ": ".toList.count '\n' = 0 := by decide
  simp only [said_eq, List.count_append, hmiddle, hcolon, feeds]
  omega

/-- An issue is told as it is when its path, its rule and its message are. -/
theorem unbroken_said_iff : Unbroken i.said ↔
    Unbroken i.path.toList ∧ Unbroken i.ruleId.toList ∧ Unbroken i.message.toList := by
  have hcolon : Unbroken ": ".toList := by decide
  simp only [said_eq, Styled.unbroken_append, i.unbroken_middle, hcolon, true_and]

end Issue

namespace Summary

/-- What is told of the counts of issues. -/
def said (s : Summary) : List Char :=
  (if s.total = 0 then "No issues found"
    else s!"{s.total} issues ({s.errors} errors, {s.warnings} warnings)").toList

theorem unbroken_said (s : Summary) : Unbroken s.said := by
  rw [said]
  split
  · decide
  · simp only [String.toList_append, Styled.unbroken_append, Styled.unbroken_toString, true_and,
      and_true]
    decide

theorem plain_line (s : Summary) : s.line.plain = s.said := by
  rw [← (Styled.unbroken_iff.1 s.unbroken_said).2, line, said]
  split
  · rfl
  · simp only [Styled.plain_append, Styled.plain_ofText, Styled.printable_append,
      String.toList_append, List.append_assoc]
    rfl

end Summary

namespace Report

variable {r : Report}

/-- The lines of a compact report. -/
def lines (r : Report) : List (List Char) := splitOn '\n' r.compact.plain

theorem lines_of_nil (h : r.issues = []) : r.lines = ["No issues found".toList] := by
  rw [lines, compact, h, Styled.plain_joinLines]
  show splitOn '\n' r.summary.line.plain = _
  rw [r.summary.plain_line, Text.splitOn_of_not_mem fun hmem => (r.summary.unbroken_said _ hmem).1 rfl,
    Summary.said, if_pos (by rw [summary, Summary.ofIssues, h]; rfl)]

/-- **The lines of a report** are those of its issues, an empty one and one that counts them. -/
theorem lines_eq (h : r.issues ≠ []) :
    r.lines = r.issues.flatMap (fun i => splitOn '\n' (printable i.said)) ++ [[], r.summary.said] := by
  have hsummary : splitOn '\n' r.summary.said = [r.summary.said] :=
    Text.splitOn_of_not_mem fun hmem => (r.summary.unbroken_said _ hmem).1 rfl
  rw [lines, compact, if_neg (by simpa using h), Styled.plain_joinLines, Text.splitOn_joinWith _ (by simp)]
  simp only [List.map_append, List.map_map, List.map_cons, List.map_nil, List.flatMap_append,
    List.flatMap_map, List.flatMap_cons, List.flatMap_nil, List.append_nil, Summary.plain_line,
    Function.comp_apply, Issue.plain_line, hsummary, List.append_assoc]
  rfl

/-- Each issue takes a line, and a line more for each line feed in it. -/
theorem length_flatMap_splitOn (issues : List Issue) :
    (issues.flatMap fun i => splitOn '\n' (printable i.said)).length =
      issues.length + (issues.flatMap Issue.said).count '\n' := by
  induction issues with
  | nil => rfl
  | cons i rest ih =>
    rw [List.flatMap_cons, List.flatMap_cons, List.length_append, List.count_append, List.length_cons, ih,
      Text.length_splitOn, Styled.count_printable]
    omega

theorem length_lines (h : r.issues ≠ []) :
    r.lines.length = r.issues.length + 2 + (r.issues.flatMap Issue.said).count '\n' := by
  rw [lines_eq h, List.length_append, length_flatMap_splitOn, List.length_cons, List.length_singleton]
  omega

/-- Each issue stands on one line when there is no line feed in any of them. -/
theorem length_lines_iff (h : r.issues ≠ []) :
    r.lines.length = r.issues.length + 2 ↔ ∀ i ∈ r.issues, i.feeds = 0 := by
  have hzero : (r.issues.flatMap Issue.said).count '\n' = 0 ↔ ∀ i ∈ r.issues, i.feeds = 0 := by
    simp only [← Issue.count_said, List.count_eq_zero, List.mem_flatMap, not_exists, not_and]
  rw [length_lines h, ← hzero]
  omega

/-- The lines are what is told of the issues when nothing breaks them and nothing is left out. -/
theorem lines_eq_said_iff (h : r.issues ≠ []) :
    r.lines = r.issues.map Issue.said ++ [[], r.summary.said] ↔ ∀ i ∈ r.issues, Unbroken i.said := by
  constructor
  · intro heq
    have hfeeds : ∀ i ∈ r.issues, i.said.count '\n' = 0 := by
      intro i hi
      rw [i.count_said]
      refine (length_lines_iff h).1 ?_ i hi
      rw [heq]
      simp
    have hone : r.issues.flatMap (fun i => splitOn '\n' (printable i.said)) =
        r.issues.map fun i => printable i.said := by
      rw [List.map_eq_flatMap]
      refine List.flatMap_congr fun i hi => Text.splitOn_of_not_mem ?_
      rw [← List.count_eq_zero, Styled.count_printable, hfeeds i hi]
    rw [lines_eq h, hone, List.append_left_inj, List.map_inj_left] at heq
    exact fun i hi => Styled.unbroken_iff.2 ⟨hfeeds i hi, heq i hi⟩
  · intro hall
    rw [lines_eq h, List.append_left_inj, List.map_eq_flatMap]
    refine List.flatMap_congr fun i hi => ?_
    obtain ⟨hfeeds, hprintable⟩ := Styled.unbroken_iff.1 (hall i hi)
    rw [hprintable, Text.splitOn_of_not_mem (List.count_eq_zero.1 hfeeds)]

/-- On which lines a report stands. -/
structure LinedUp (r : Report) : Prop where
  nothing : r.issues = [] → r.lines = ["No issues found".toList]
  /-- the lines of the issues in their order, an empty one and one that counts them -/
  lines : r.issues ≠ [] →
    r.lines = r.issues.flatMap (fun i => splitOn '\n' (printable i.said)) ++ [[], r.summary.said]
  length : r.issues ≠ [] →
    r.lines.length = r.issues.length + 2 + (r.issues.flatMap Issue.said).count '\n'
  /-- the issues have one line each when there is no line feed in any of them -/
  one_each : r.issues ≠ [] → (r.lines.length = r.issues.length + 2 ↔ ∀ i ∈ r.issues, i.feeds = 0)
  /-- they are told as they are when there is none, and no control character that is left out -/
  told : r.issues ≠ [] → (r.lines = r.issues.map Issue.said ++ [[], r.summary.said] ↔
    ∀ i ∈ r.issues, Unbroken i.path.toList ∧ Unbroken i.ruleId.toList ∧ Unbroken i.message.toList)

theorem linedUp (r : Report) : r.LinedUp where
  nothing := lines_of_nil
  lines := lines_eq
  length := length_lines
  one_each := length_lines_iff
  told h := by
    rw [lines_eq_said_iff h]
    simp only [Issue.unbroken_said_iff]

end Report

namespace Batch

variable {h : Host} {t : Stamp} {o : Options} {answer : Call → Answer} {rep : Report}

/-- The issues of a batch are what its linters find. -/
theorem mem_issues_iff (hfiles : o.files ≠ []) {ts : List Tool}
    (hrep : (runOver h t o ts).value answer = .ok rep) {i : Issue} :
    i ∈ rep.issues ↔ ∃ k ∈ ts, i ∈ found h o answer k := by
  rw [value_runOver hfiles] at hrep
  obtain ⟨-, rfl⟩ := report_eq_ok_iff.1 hrep
  rw [Issue.mem_sort, List.filterMap_eq_flatMap_toList, List.flatMap_assoc, List.mem_flatMap]
  rfl

/-- The issue of a finding has a line feed for each line that goes on with its header, but for one of
them when the header has no text. -/
theorem feeds_issue {output : String} {fs : List Output.Tsc.Finding} {f : Output.Tsc.Finding}
    (hreading : Output.Tsc.Reading (Text.lines output.toList) fs) (hf : f ∈ fs) (root : Path) :
    (f.issue root).feeds = f.more.length - if f.header.text.all Text.isBlank then 1 else 0 := by
  obtain ⟨hpath, hrule, hmessage⟩ := hreading.count_issue hf root
  rw [Issue.feeds, List.count_eq_zero.2 hpath, List.count_eq_zero.2 hrule, hmessage, Nat.zero_add]

/-- **Reports line by line.** A compact report has a line for each issue and one more for each line
feed in an issue, and two lines after them. So each issue has a line of its own exactly when there is
no line feed in any; in the report of a batch, on whatever schedule, when there is none in what its
linters find, whatever their tools are. The type checker finds issues with as many line feeds as lines go on with a header. -/
theorem inevitably_linedUp (h : Host) (t : Stamp) (o : Options) (answer : Call → Answer)
    (hfiles : o.files ≠ []) (ts : List Tool) :
    (∀ rep : Report, rep.LinedUp) ∧
      Inevitably h t o (.exactly answer) (fun _ res => ∀ rep, res = .ok rep →
        (rep.issues = [] ↔ ∀ k ∈ ts, found h o answer k = []) ∧
          (rep.issues ≠ [] → (rep.lines.length = rep.issues.length + 2 ↔
            ∀ k ∈ ts, ∀ i ∈ found h o answer k, i.feeds = 0))) (initial h t o ts) ∧
      ∀ (root : Path) (output : String) (fs : List Output.Tsc.Finding),
        Output.Tsc.Reading (Text.lines output.toList) fs → ∀ f ∈ fs,
          (f.issue root).feeds = f.more.length - if f.header.text.all Text.isBlank then 1 else 0 := by
  refine ⟨Report.linedUp, (inevitably_value hfiles ts).mono ?_, fun root output fs hreading f hf =>
    feeds_issue hreading hf root⟩
  rintro _ _ rfl rep hrep
  constructor
  · simp only [List.eq_nil_iff_forall_not_mem, mem_issues_iff hfiles hrep]
    constructor
    · exact fun hnone k hk i hi => hnone i ⟨k, hk, hi⟩
    · rintro hnone i ⟨k, hk, hi⟩
      exact hnone k hk i hi
  · intro hsome
    rw [Report.length_lines_iff hsome]
    simp only [mem_issues_iff hfiles hrep]
    constructor
    · exact fun hall k hk i hi => hall i ⟨k, hk, hi⟩
    · rintro hall i ⟨k, hk, hi⟩
      exact hall k hk i hi

namespace Sample

/-- Programs of which the type checker finds an error that it tells on two lines. -/
def continued : Call → Answer := fun c =>
  if c.command = "/bin/tsc" ∧ c.args ≠ Linter.versionArgs then
    .ok { stdout := Output.Tsc.Sample.output, exitCode := 2 }
  else .ok {}

/-- How many issues there are, and on how many lines they are told. -/
def extent : Result → Option (Nat × Nat)
  | .ok rep => some (rep.issues.length, rep.lines.length)
  | .error _ => none

theorem extent_continued :
    extent ((runOver (host .codePoints) default options options.tools).value continued) =
      some (1, 4) := by
  decide +kernel

end Sample

/-- What `inevitably_linedUp` says of a batch over one file in which the type checker tells an error on
two lines: whatever the schedule, there are more lines than one for each issue and two. -/
theorem inevitably_linedUp_continued : Sample.options.files ≠ [] ∧
    (Output.Tsc.Sample.finding.issue Sample.options.cwd).feeds = 1 ∧
    Inevitably (Sample.host .codePoints) default Sample.options (.exactly Sample.continued)
      (fun _ res => ∀ rep, res = .ok rep → rep.issues ≠ [] ∧ rep.lines.length ≠ rep.issues.length + 2)
      (initial (Sample.host .codePoints) default Sample.options [Linter.tsc]) := by
  have hfiles : Sample.options.files ≠ [] := by decide
  obtain ⟨-, hbatch, hfeeds⟩ := inevitably_linedUp (Sample.host .codePoints) default Sample.options
    Sample.continued hfiles [Linter.tsc]
  refine ⟨hfiles, hfeeds _ _ _ Output.Tsc.Sample.reading_output _ (List.mem_singleton_self _),
    hbatch.mono fun _ res hres rep hrep => ?_⟩
  obtain ⟨hnone, hone⟩ := hres rep hrep
  have hfound : (found (Sample.host .codePoints) Sample.options Sample.continued Linter.tsc).any
      (fun i => i.feeds ≠ 0) = true := by
    decide +kernel
  obtain ⟨i, hi, hfeed⟩ := List.any_eq_true.1 hfound
  have hsome : rep.issues ≠ [] := fun hnil => by
    rw [hnone.1 hnil _ List.mem_cons_self] at hi
    cases hi
  exact ⟨hsome, fun hlength => of_decide_eq_true hfeed ((hone hsome).1 hlength _ List.mem_cons_self i hi)⟩

/-- **Not every report has a line for each issue**: that of a batch in which the type checker finds an
error that it tells on two lines has four lines and not three. -/
theorem not_linedUp_one_each : ¬ ∀ (h : Host) (t : Stamp) (o : Options) (answer : Call → Answer)
    (rep : Report), o.files ≠ [] → (runOver h t o o.tools).value answer = .ok rep →
      rep.lines.length = if rep.issues.isEmpty then 1 else rep.issues.length + 2 := by
  intro hall
  have hextent := Sample.extent_continued
  cases hres : (runOver (Sample.host .codePoints) default Sample.options Sample.options.tools).value
      Sample.continued with
  | error fault =>
    rw [hres] at hextent
    cases hextent
  | ok rep =>
    rw [hres] at hextent
    have hlines := hall _ _ _ _ rep (by decide) hres
    obtain ⟨hissues, hlength⟩ := Prod.mk.inj (Option.some.inj hextent)
    rw [hlength, if_neg (by rw [List.isEmpty_iff_length_eq_zero, hissues]; decide), hissues] at hlines
    cases hlines

end Batch
end LintMerge
