/-
# Messages of eslint

Eslint prints a list of files, each with a list of messages. What a message says of its place, of
its rule and of its fix is taken with defaults where it says nothing: a line, a column and the two
ends (`Eslint.Places`), a name for the rule of a message that names none, and a suggested fix for a
message that has none of its own (`Eslint.HasFix`). Every message of such a list is kept, in its
order (`Eslint.Tells`); but one that contradicts itself, in its place or in its fix
(`Eslint.Inconsistent`), takes all others with it (`Eslint.parse_messages`).
-/

import Mathlib
import LintMerge.Proofs.Output.Refusals

namespace LintMerge
namespace Output
namespace Eslint

variable {root : Path} {entry message v : Value} {other n line column endLine endColumn : Int}

/-- The number that a value gives: the whole number that it holds, and another one in the place of
zero and of what is no whole number. -/
inductive Gives (other : Int) (v : Value) : Int → Prop
  | number {n : Int} (h : integer? v = some n) (hn : n ≠ 0) : Gives other v n
  | other (h : ∀ n, integer? v = some n → n = 0) : Gives other v other

theorem gives_iff : Gives other v n ↔ n = integerOr other v := by
  rw [integerOr]
  constructor
  · rintro (⟨h, hn⟩ | h)
    · simp [h, hn]
    · split
      · next m hm => simp [h m hm]
      · rfl
  · rintro rfl
    split
    · next m hm =>
      split
      · next hzero => exact .other fun n hn => by rw [← Option.some.inj (hm.symm.trans hn), hzero]
      · next hne => exact .number hm hne
    · next hnone => exact .other fun n hn => absurd (hnone.symm.trans hn) (by simp)

/-- The place that a message tells. Lines and columns are 1 where it tells none, and it ends where it
starts where it tells no end. -/
structure Places (message : Value) (line column endLine endColumn : Int) : Prop where
  starts : Gives 1 (message.field "line") line
  startsAt : Gives 1 (message.field "column") column
  ends : Gives line (message.field "endLine") endLine
  endsAt : Gives column (message.field "endColumn") endColumn

theorem places_iff : Places message line column endLine endColumn ↔
    line = integerOr 1 (message.field "line") ∧ column = integerOr 1 (message.field "column") ∧
      endLine = integerOr line (message.field "endLine") ∧
      endColumn = integerOr column (message.field "endColumn") := by
  constructor
  · rintro ⟨hline, hcolumn, hendLine, hendColumn⟩
    exact ⟨gives_iff.1 hline, gives_iff.1 hcolumn, gives_iff.1 hendLine, gives_iff.1 hendColumn⟩
  · rintro ⟨hline, hcolumn, hendLine, hendColumn⟩
    exact ⟨gives_iff.2 hline, gives_iff.2 hcolumn, gives_iff.2 hendLine, gives_iff.2 hendColumn⟩

/-- The fix that counts for a message: its own one, or else that of its first suggestion. -/
inductive HasFix (message : Value) : Value → Prop
  | own (h : isTable (message.field "fix") = true) : HasFix message (message.field "fix")
  | suggested {s : Value} (hown : isTable (message.field "fix") = false)
      (hs : FirstTable (message.field "suggestions") s) (h : isTable (s.field "fix") = true) :
      HasFix message (s.field "fix")

theorem fixTable?_eq_some_iff : fixTable? message = some v ↔ HasFix message v := by
  rw [fixTable?]
  constructor
  · intro h
    split at h
    · next hown =>
      cases h
      exact .own hown
    · next hown =>
      obtain ⟨hmap, htable⟩ := Option.filter_eq_some_iff.1 h
      obtain ⟨s, hs, rfl⟩ := Option.map_eq_some_iff.1 hmap
      exact .suggested (by simpa using hown) (head?_tables_eq_some_iff.1 hs) htable
  · rintro (h | ⟨hown, hs, h⟩)
    · rw [if_pos h]
    · rw [if_neg (by simp [hown]), head?_tables_eq_some_iff.2 hs]
      exact Option.filter_eq_some_iff.2 ⟨rfl, h⟩

/-- The fix of an issue as the message tells it: one replacement of the range of the fix that counts,
and none where that fix has no range. -/
inductive Fixes (message : Value) : Option Fix → Prop
  | replacement {fix : Value} {r : Replacement} (hfix : HasFix message fix)
      (hrange : IsPair (fix.field "range") r.start r.stop)
      (htext : r.text = (text? (fix.field "text")).getD "") : Fixes message (some ⟨[r]⟩)
  | nothing (h : ∀ fix start stop, HasFix message fix → ¬ IsPair (fix.field "range") start stop) :
      Fixes message none

/-- A message that is out of place: what it tells is no span. -/
def Displaced (message : Value) : Prop :=
  ∃ line column endLine endColumn, Places message line column endLine endColumn ∧
    Span.Misplaced line column endLine endColumn

/-- A message with a fix for a range that runs backward or starts before the text. -/
def Backward (message : Value) : Prop :=
  ∃ fix start stop, HasFix message fix ∧ IsPair (fix.field "range") start stop ∧
    (start < 0 ∨ stop < start)

/-- A message that contradicts itself. -/
def Inconsistent (message : Value) : Prop := Displaced message ∨ Backward message

theorem displaced_iff : Displaced message ↔
    Span.Misplaced (integerOr 1 (message.field "line")) (integerOr 1 (message.field "column"))
      (integerOr (integerOr 1 (message.field "line")) (message.field "endLine"))
      (integerOr (integerOr 1 (message.field "column")) (message.field "endColumn")) := by
  constructor
  · rintro ⟨line, column, endLine, endColumn, h, hmisplaced⟩
    obtain ⟨rfl, rfl, rfl, rfl⟩ := places_iff.1 h
    exact hmisplaced
  · exact fun h => ⟨_, _, _, _, places_iff.2 ⟨rfl, rfl, rfl, rfl⟩, h⟩

theorem backward_iff : Backward message ↔
    ∃ fix ∈ fixTable? message, ∃ r ∈ pair? (fix.field "range"), r.1 < 0 ∨ r.2 < r.1 := by
  constructor
  · rintro ⟨fix, start, stop, hfix, hrange, h⟩
    exact ⟨fix, fixTable?_eq_some_iff.2 hfix, (start, stop), pair?_eq_some_iff.2 hrange, h⟩
  · rintro ⟨fix, hfix, ⟨start, stop⟩, hrange, h⟩
    exact ⟨fix, start, stop, fixTable?_eq_some_iff.1 hfix, pair?_eq_some_iff.1 hrange, h⟩

instance (message : Value) : Decidable (Inconsistent message) :=
  decidable_of_iff _ (or_congr displaced_iff backward_iff).symm

/-- An issue that says what a message in the entry of a file says. -/
structure Tells (root : Path) (entry message : Value) (i : Issue) : Prop where
  file : ∃ file, text? (entry.field "filePath") = some file ∧ file ≠ "" ∧ i.path = root.key file
  place : Places message i.span.line i.span.column i.span.endLine i.span.endColumn
  error_iff : i.severity = .error ↔ integer? (message.field "severity") = some 2
  other : i.severity ≠ .error → i.severity = .warning
  rule : ∀ rule, text? (message.field "ruleId") = some rule → rule ≠ "" → i.ruleId = "eslint/" ++ rule
  noRule : text? (message.field "ruleId") = none ∨ text? (message.field "ruleId") = some "" →
    i.ruleId = "eslint/parse-error"
  fix : Fixes message i.fix
  text : i.message = (text? (message.field "message")).getD ""
  source : i.source = .eslint

/-- A message whose fix has no range, or that has no fix, is read without one. -/
theorem judged_nothing (h : ∀ fix ∈ fixTable? message, pair? (fix.field "range") = none) :
    Judged (Backward message) (Fixes message) (.ok none) := by
  have hrange : ∀ fix start stop, HasFix message fix → ¬ IsPair (fix.field "range") start stop := by
    intro fix start stop hfix hpair
    cases (h fix (fixTable?_eq_some_iff.2 hfix)).symm.trans (pair?_eq_some_iff.2 hpair)
  refine .inr ⟨?_, none, rfl, .nothing hrange⟩
  rintro ⟨fix, start, stop, hfix, hpair, -⟩
  exact hrange fix start stop hfix hpair

/-- The fix of a message is refused where its range runs backward or starts before the text. -/
theorem judged_fix (message : Value) :
    Judged (Backward message) (Fixes message) (fix? message) := by
  rw [fix?]
  split
  · next hnone => exact judged_nothing fun fix hfix => by cases hnone.symm.trans hfix
  · next fix hfix =>
    split
    · next hnone =>
      refine judged_nothing fun fix' hfix' => ?_
      rw [← Option.some.inj (hfix.symm.trans hfix'), hnone]
    · next start stop hrange =>
      have hmade := judged_replacement start stop ((text? (fix.field "text")).getD "")
      refine (hmade.mono ?_ fun _ h => h).bind_pure fun r hr => ?_
      · rw [backward_iff, hfix]
        simp [hrange]
      · obtain ⟨rfl, rfl, htext⟩ := Replacement.make_eq_ok.1 hr
        exact .replacement (fixTable?_eq_some_iff.1 hfix) (pair?_eq_some_iff.1 hrange) htext.symm

/-- A message is refused where it contradicts itself. -/
theorem judged_issue {file : String} (hfile : someText? (entry.field "filePath") = some file)
    (tornPath : Option Torn) (hwhole : torn? (message.field "ruleId") = none) :
    Judged (Inconsistent message) (Tells root entry message)
      (issue (root.key file) tornPath message) := by
  refine Judged.mono ?_ ((or_congr_right displaced_iff).symm.trans or_comm) fun _ h => h
  refine Judged.bind (judged_fix message) fun fix hfix => ?_
  refine (judged_ofDraft (Issue.isPath_key root file) (ruleOf_ne_empty _ _) hwhole).mono Iff.rfl
    fun i hi => ?_
  obtain ⟨hpath, hline, hcolumn, hendLine, hendColumn, hseverity, hrule, htext, hsource, hifix, -⟩ :=
    Issue.ofDraft_eq_ok.1 hi
  dsimp only at hpath hline hcolumn hendLine hendColumn hseverity hrule htext hsource hifix
  obtain ⟨hsome, hne⟩ := someText?_eq_some_iff.1 hfile
  refine ⟨⟨file, hsome, hne, hpath⟩, ?_, ?_, ?_, ?_, ?_, hifix ▸ hfix, htext, hsource⟩
  · rw [hline, hcolumn, hendLine, hendColumn]
    exact places_iff.2 ⟨rfl, rfl, rfl, rfl⟩
  · rw [hseverity, errorLevel]
    split <;> simp [*]
  · rw [hseverity]
    split <;> simp
  · intro rule hsaid hrulene
    rw [hrule, ruleText_of_ne hsaid hrulene]
    rfl
  · intro h
    rw [hrule, ruleText_of_none h]
    rfl

/-- The messages of some files in their order, each with the entry of its file. -/
def messages (entries : List Value) : List (Value × Value) :=
  entries.flatMap fun e => (tables (e.field "messages")).map fun m => (e, m)

/-- The messages of a file are refused where one of them contradicts itself. -/
theorem judged_fileIssues (root : Path) (hnames : NamesFile entry)
    (hwhole : ∀ m ∈ tables (entry.field "messages"), torn? (m.field "ruleId") = none) :
    Judged (∃ m ∈ tables (entry.field "messages"), Inconsistent m)
      (List.Forall₂ (Tells root entry) (tables (entry.field "messages"))) (fileIssues root entry) := by
  obtain ⟨htable, hnamed⟩ := hnames
  obtain ⟨file, hfile⟩ := Option.ne_none_iff_exists'.1 hnamed
  cases entry with
  | table entries =>
    rw [fileIssues, hfile]
    exact Judged.mapM fun m hm => judged_issue hfile _ (hwhole m hm)
  | _ => cases htable

/-- **Every message is kept, or none is.** If no half of a pair stands in the name of a rule, a list
of files is refused exactly when one of their messages contradicts itself; otherwise it is read as one
issue for each message, in their order. -/
theorem parse_messages (root : Path) {output : String} {entries : List Value}
    (hprints : Prints output (.list entries)) (hnames : ∀ e ∈ entries, NamesFile e)
    (hwhole : ∀ e ∈ entries, ∀ m ∈ tables (e.field "messages"), torn? (m.field "ruleId") = none) :
    (Invalid (parse root output) ↔
      ∃ e ∈ entries, ∃ m ∈ tables (e.field "messages"), Inconsistent m) ∧
    ((¬ ∃ e ∈ entries, ∃ m ∈ tables (e.field "messages"), Inconsistent m) →
      ∃ issues, parse root output = .ok issues ∧
        List.Forall₂ (fun p i => Tells root p.1 p.2 i) (messages entries) issues) := by
  have hparse : Judged (∃ e ∈ entries, ∃ m ∈ tables (e.field "messages"), Inconsistent m)
      (List.Forall₂ (fun p i => Tells root p.1 p.2 i) (messages entries)) (parse root output) := by
    rw [parse, load_of_prints hprints Value.noConfusion]
    have hfiles := Judged.mapM fun e he => judged_fileIssues root (hnames e he) (hwhole e he)
    refine hfiles.bind_pure fun files hfiles => List.rel_flatten (List.forall₂_map_left_iff.2 ?_)
    refine hfiles.imp fun e issues (h : List.Forall₂ (Tells root e) _ issues) => ?_
    exact List.forall₂_map_left_iff.2 h
  exact ⟨hparse.invalid_iff, hparse.exists_ok⟩

/-- The entry of a file with some messages. -/
def fileOf (messages : List Value) : Value :=
  .table [("filePath", .text "a.js"), ("messages", .list messages)]

theorem namesFile_fileOf (ms : List Value) : ∀ e ∈ [fileOf ms], NamesFile e := by
  intro e he
  rw [List.mem_singleton.1 he]
  exact ⟨rfl, show someText? (.text "a.js") ≠ none by decide⟩

/-- The hypotheses of `parse_messages` hold together. Of the two messages of a file both are kept,
although one of them tells nothing; but with a message on line -1 the other one is lost, too. -/
theorem parse_messages_sample : ∃ kept lost : String,
    Prints kept (.list [fileOf [.table [("line", .int 2)], .table [], .int 1]]) ∧
    Prints lost (.list [fileOf [.table [], .table [("line", .int (-1))]]]) ∧
    (∃ first second, parse ⟨1, ["project"]⟩ kept = .ok [first, second] ∧
      first.span.line = 2 ∧ second.span.line = 1 ∧ second.ruleId = "eslint/parse-error") ∧
    Invalid (parse ⟨1, ["project"]⟩ lost) := by
  have hkept : Prints
      "[\x7b\"filePath\":\"a.js\",\"messages\":[\x7b\"line\":2\x7d,\x7b\x7d,1]\x7d]"
      (.list [fileOf [.table [("line", .int 2)], .table [], .int 1]]) := by cbv
  have hlost : Prints
      "[\x7b\"filePath\":\"a.js\",\"messages\":[\x7b\x7d,\x7b\"line\":-1\x7d]\x7d]"
      (.list [fileOf [.table [], .table [("line", .int (-1))]]]) := by cbv
  obtain ⟨-, hread⟩ := parse_messages ⟨1, ["project"]⟩ hkept (namesFile_fileOf _) (by decide)
  obtain ⟨hrefused, -⟩ := parse_messages ⟨1, ["project"]⟩ hlost (namesFile_fileOf _) (by decide)
  obtain ⟨issues, hissues, htells⟩ := hread (by decide)
  obtain _ | ⟨hfirst, _ | ⟨hsecond, _ | _⟩⟩ := htells
  refine ⟨_, _, hkept, hlost, ⟨_, _, hissues, ?_, ?_, hsecond.noRule (.inl rfl)⟩,
    hrefused.2 (by decide)⟩
  · exact Int.ofNat_inj.1 (places_iff.1 hfirst.place).1
  · exact Int.ofNat_inj.1 (places_iff.1 hsecond.place).1

end Eslint
end Output
end LintMerge
