/-
# Records of the type checker

The output of the type checker is read line by line, with the record that is open carried along.
What comes of it can be said without a state (`Reading`): there is one finding for each line that is
written as a header, in order, and it goes on with the longest run of indented lines that are not
blank right after the header. All other lines are of no account.

The step that matters is that an open record takes that run and leaves the rest as if no record
were open (`recordsFrom_some`): no header stands in the run, since none is indented. So the records
are those of the reading (`Reading.records_eq`), and the issues are theirs, one for each
(`parse_reading`).
-/

import LintMerge.Proofs.Output.Headers
import LintMerge.Proofs.Path.Keys

namespace LintMerge
namespace Output
namespace Tsc

/-- A header and the lines that go on with it. -/
structure Finding where
  header : Header
  more : List (List Char)

namespace Finding

/-- The record that a finding is read as. -/
def record (f : Finding) : Record := ⟨f.header, (f.more.map Text.trimEnd).reverse⟩

/-- The number that a numeral stands for, one at least. -/
def position (ds : List Char) : Nat := max (Text.ofDigits (ds.filterMap Text.digitValue?)) 1

theorem one_le_position (ds : List Char) : 1 ≤ position ds := Nat.le_max_right _ _

/-- The place of a finding, which has no extent. -/
def span (f : Finding) : Span where
  line := position f.header.line
  column := position f.header.column
  endLine := position f.header.line
  endColumn := position f.header.column
  one_le_line := one_le_position _
  one_le_column := one_le_position _
  one_le_endColumn := one_le_position _
  ordered := .inr ⟨rfl, Nat.le_refl _⟩

/-- What a finding says. -/
def message (f : Finding) : List Char :=
  Text.trim (Text.joinWith ['\n'] (f.header.text :: f.more.map Text.trimEnd))

/-- The issue of a finding, seen from a directory. -/
def issue (root : Path) (f : Finding) : Issue where
  path := root.key (String.ofList f.header.path)
  span := f.span
  severity := if f.header.category = "error" then .error else .warning
  ruleId := "tsc/" ++ String.ofList f.header.code
  message := String.ofList f.message
  source := .tsc
  fix := none
  about := none
  isPath := ⟨Path.key_ne_empty _ _, Path.not_isAbsoluteText_key _ _⟩
  ruleId_ne := by simp

/-- The line and the column of a finding have no more digits than are read. -/
def Short (f : Finding) : Prop :=
  f.header.line.length ≤ Text.maxDigits ∧ f.header.column.length ≤ Text.maxDigits

end Finding

/-- **What lines say.** Each line that is written as a header starts a finding, to which the run of
lines belongs that go on with it. -/
inductive Reading : List (List Char) → List Finding → Prop where
  | nil : Reading [] []
  | header {line : List Char} {rest : List (List Char)} {h : Header} {found : List Finding}
      (hline : h.Heads line) (hrest : Reading rest found) :
      Reading (line :: rest) (⟨h, rest.takeWhile isContinuation⟩ :: found)
  | other {line : List Char} {rest : List (List Char)} {found : List Finding}
      (hline : ∀ h : Header, ¬ h.Fits line) (hrest : Reading rest found) : Reading (line :: rest) found

/-- All lines can be read. -/
theorem exists_reading (lines : List (List Char)) : ∃ found, Reading lines found := by
  induction lines with
  | nil => exact ⟨[], .nil⟩
  | cons line rest ih =>
    obtain ⟨found, hfound⟩ := ih
    cases hline : header? line with
    | some h => exact ⟨_, .header (heads_of_header? hline) hfound⟩
    | none => exact ⟨found, .other (header?_eq_none_iff.1 hline) hfound⟩

/-- No line that goes on with a record is a header. -/
theorem header?_of_isContinuation {line : List Char} (h : isContinuation line = true) :
    header? line = none := by
  cases line with
  | nil => rfl
  | cons c rest =>
    have hindent : c = ' ' ∨ c = '\t' := by
      have hhead := ((Bool.and_eq_true _ _).mp h).1
      simpa using hhead
    have hblank : Text.isBlank c = true := by rcases hindent with rfl | rfl <;> decide
    rw [header?, if_pos hblank]

/-- **An open record takes the run of lines that go on with it**, and leaves the others as if no
record were open. -/
theorem recordsFrom_some (r : Record) (lines : List (List Char)) :
    recordsFrom (some r) lines =
      ⟨r.header, ((lines.takeWhile isContinuation).map Text.trimEnd).reverse ++ r.more⟩ ::
        recordsFrom none lines := by
  induction lines generalizing r with
  | nil => rfl
  | cons line rest ih =>
    cases hline : header? line with
    | some h =>
      have hstop : isContinuation line = false := by
        by_contra hgo
        rw [header?_of_isContinuation (Bool.not_eq_false _ ▸ hgo)] at hline
        cases hline
      rw [List.takeWhile_cons_of_neg (by rw [hstop]; decide)]
      simp only [recordsFrom, hline]
      rfl
    | none =>
      cases hgo : isContinuation line with
      | true =>
        rw [List.takeWhile_cons_of_pos hgo]
        simp only [recordsFrom, hline, hgo, if_true, ih]
        simp
      | false =>
        rw [List.takeWhile_cons_of_neg (by rw [hgo]; decide)]
        simp only [recordsFrom, hline, hgo]
        rfl

/-- **The records of some lines are those of their reading.** -/
theorem Reading.records_eq {lines : List (List Char)} {found : List Finding} (h : Reading lines found) :
    records lines = found.map Finding.record := by
  induction h with
  | nil => rfl
  | @header line rest h found hline _ ih =>
    have hread : header? line = some h := header?_eq_some_iff.2 hline
    rw [records] at ih ⊢
    simp only [recordsFrom, hread]
    rw [recordsFrom_some, ih, List.append_nil]
    rfl
  | @other line rest found hline _ ih =>
    have hread : header? line = none := header?_eq_none_iff.2 hline
    rw [records] at ih ⊢
    simpa only [recordsFrom, hread] using ih

/-- A numeral that is not too long is read as the number that it stands for. -/
theorem number_of_length_le {ds : List Char} (h : ds.length ≤ Text.maxDigits) :
    number ds = .ok (Text.ofDigits (ds.filterMap Text.digitValue?)) := by
  rw [number, if_neg (Nat.not_lt.2 h)]

theorem record_message (f : Finding) : f.record.message = f.message := by
  rw [Record.message, Finding.record, List.reverse_reverse, Finding.message]

/-- The record of a finding is read as the issue of the finding. -/
theorem issue_record (root : Path) {f : Finding} (hf : f.Short) :
    f.record.issue root = .ok (f.issue root) := by
  have hposition (ds : List Char) : ((Finding.position ds : Nat) : Int) =
      max ((Text.ofDigits (ds.filterMap Text.digitValue?) : Nat) : Int) 1 := by
    rw [Finding.position]
    omega
  refine Faulty.bind_eq_ok.2 ⟨_, number_of_length_le hf.1, Faulty.bind_eq_ok.2
    ⟨_, number_of_length_le hf.2, ofChecked_eq_ok.2 (Issue.ofDraft_eq_ok.2 ?_)⟩⟩
  exact ⟨rfl, hposition _, hposition _, hposition _, hposition _, rfl, rfl,
    congrArg String.ofList (record_message f).symm, rfl, rfl, rfl, rfl, rfl⟩

/-- **Output is parsed as the issues of its reading**, one for each finding and in order. -/
theorem Reading.parse_eq {output : String} {found : List Finding}
    (h : Reading (Text.lines output.toList) found) (hshort : ∀ f ∈ found, f.Short) (root : Path) :
    parse root output = .ok (found.map (Finding.issue root)) := by
  rw [parse, h.records_eq, List.mapM_map]
  refine Faulty.mapM_eq_ok.2 ?_
  rw [List.forall₂_map_right_iff, List.forall₂_same]
  exact fun f hf => issue_record root (hshort f hf)

/-- **What is read of the output of the type checker.** The lines of every output can be read, and
where no line or column of the reading has more digits than are read, the output is parsed as the
issues of the findings, one for each and in order. -/
theorem parse_reading (root : Path) (output : String) :
    (∃ found, Reading (Text.lines output.toList) found) ∧
      ∀ found, Reading (Text.lines output.toList) found → (∀ f ∈ found, f.Short) →
        parse root output = .ok (found.map (Finding.issue root)) :=
  ⟨exists_reading _, fun _ hreading hshort => hreading.parse_eq hshort root⟩

namespace Sample

/-- Output with one record and a line that belongs to none. -/
def output : String := "a.ts(3,14): error TS2322: A is no B.\n  C is missing.\nFound 1 error.\n"

/-- The finding in the output. -/
def finding : Finding where
  header := ⟨"a.ts".toList, "3".toList, "14".toList, "error", "TS2322".toList, "A is no B.".toList⟩
  more := ["  C is missing.".toList]

theorem reading_output : Reading (Text.lines output.toList) [finding] := by
  have hlines : Text.lines output.toList = ["a.ts(3,14): error TS2322: A is no B.".toList,
      "  C is missing.".toList, "Found 1 error.".toList] := by decide +kernel
  rw [hlines]
  refine .header (header?_eq_some_iff.1 ?_) (.other (header?_eq_none_iff.1 ?_)
    (.other (header?_eq_none_iff.1 ?_) .nil))
  all_goals decide +kernel

theorem short_finding : ∀ f ∈ [finding], f.Short := by
  intro f hf
  obtain rfl := List.mem_singleton.1 hf
  exact ⟨by decide, by decide⟩

end Sample

/-- The hypotheses of `parse_reading` hold together. -/
theorem parse_reading_sample : Reading (Text.lines Sample.output.toList) [Sample.finding] ∧
    (∀ f ∈ [Sample.finding], f.Short) ∧
    parse ⟨1, ["project"]⟩ Sample.output = .ok [Sample.finding.issue ⟨1, ["project"]⟩] :=
  ⟨Sample.reading_output, Sample.short_finding,
    (parse_reading _ _).2 _ Sample.reading_output Sample.short_finding⟩

end Tsc
end Output
end LintMerge
