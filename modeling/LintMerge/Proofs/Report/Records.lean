/-
# Records are read as they were written

Each record is written as a table, in which what is absent is left out, and the check of
such a table gives the record again (`Issue.check_compacted` and its kin): a field that is
written is found under its first name, and one that is left out gets the value that stands
for its absence.
-/

import LintMerge.Proofs.Check.Outcome
import LintMerge.Proofs.Time.RoundTrip
import LintMerge.Proofs.Value.Compaction
import LintMerge.Report.Basic

namespace LintMerge

open Value (compactedEntries lookup lookup_compactedEntries Wire Occurs)

namespace Check

variable {α β : Type} {es : List (String × Value)} {names : Names} {v : Value}

/-- An entry that is not null is found after compaction, by its first name. -/
theorem Names.find_compacted (hkeys : (es.map (·.1)).Nodup) (hv : lookup names.first es = some v)
    (hne : v ≠ .null) : names.find (compactedEntries es) = some (names.first, v.compacted) := by
  rw [Names.find, lookup_compactedEntries hkeys, hv, Option.bind_some, Value.present?_of_ne hne]

/-- A field that is required is found where it was written. -/
theorem required_compacted {check : Value → Checked α} {a : α} (hkeys : (es.map (·.1)).Nodup)
    (hv : lookup names.first es = some v) (hne : v ≠ .null) (hcheck : check v.compacted = .ok a) :
    required (compactedEntries es) names check = .ok a := by
  rw [required, Names.find_compacted hkeys hv hne]
  exact Checked.under_eq_ok.2 hcheck

/-- A field that has a default is found where it was written. -/
theorem defaulted_compacted {check : Value → Checked α} {a absent : α} (hkeys : (es.map (·.1)).Nodup)
    (hv : lookup names.first es = some v) (hne : v ≠ .null) (hcheck : check v.compacted = .ok a) :
    defaulted (compactedEntries es) names absent check = .ok a := by
  rw [defaulted, Names.find_compacted hkeys hv hne]
  exact Checked.under_eq_ok.2 hcheck

/-- A check that may find nothing accepts what the check of something does. -/
theorem optional_eq_ok {check : Value → Checked α} {a : α} (hne : v ≠ .null) (h : check v = .ok a) :
    optional check v = .ok (some a) := by
  cases v with
  | null => exact absurd rfl hne
  | _ => exact Checked.map_eq_ok.2 ⟨a, h, rfl⟩

/-- **What may be absent** is found when it is there; when it is not it was left out, and is absent
again. -/
theorem optional_compacted {check : Value → Checked α} {f : α → Value} {x : Option α}
    (hkeys : (es.map (·.1)).Nodup) (hv : lookup names.first es = some ((x.map f).getD .null))
    (hsecond : lookup names.second es = none ∨ names.second = names.first)
    (hcheck : ∀ a, x = some a → (f a).compacted ≠ .null ∧ check (f a).compacted = .ok a) :
    defaulted (compactedEntries es) names none (optional check) = .ok x := by
  cases x with
  | none =>
    have hfirst : lookup names.first (compactedEntries es) = none := by
      rw [lookup_compactedEntries hkeys, hv]
      rfl
    have hlast : lookup names.second (compactedEntries es) = none := by
      rcases hsecond with h | h
      · rw [lookup_compactedEntries hkeys, h]
        rfl
      · rw [h, hfirst]
    rw [defaulted, Names.find, hfirst, hlast]
    rfl
  | some a =>
    obtain ⟨hne, hok⟩ := hcheck a rfl
    have hpart : f a ≠ .null := by
      intro h
      rw [h] at hne
      exact hne rfl
    exact defaulted_compacted hkeys hv hpart (optional_eq_ok hne hok)

/-- A list of records is read when each of them is. -/
theorem sequence_compacted (form : Form) {check : Value → Checked α} {f : α → Value} {as : List α}
    (h : ∀ a ∈ as, check (f a).compacted = .ok a) :
    sequence form check (Value.list (as.map f)).compacted = .ok as := by
  rw [Value.compacted, Value.compactedItems_eq_map, List.map_map, sequence, Checked.items,
    Checked.itemsFrom_eq_ok, List.forall₂_map_left_iff, List.forall₂_same]
  exact h

/-- A text that may be absent, likewise. -/
theorem optionalText_compacted {x : Option String} (hkeys : (es.map (·.1)).Nodup)
    (hv : lookup names.first es = some (.ofText? x))
    (hsecond : lookup names.second es = none ∨ names.second = names.first) :
    defaulted (compactedEntries es) names none (optional text) = .ok x := by
  have htext : Value.ofText? x = (x.map Value.text).getD .null := by cases x <;> rfl
  rw [htext] at hv
  exact optional_compacted hkeys hv hsecond fun s _ => ⟨Value.text_ne_null, text_eq_ok.2 rfl⟩

/-- A number that is written is found, if it is not below the bound. -/
theorem requiredNumber_compacted {bound n : Nat} {hn : bound ≤ n} (hkeys : (es.map (·.1)).Nodup)
    (hv : lookup names.first es = some (.ofNat n)) :
    required (compactedEntries es) names (atLeast bound) = .ok ⟨n, hn⟩ :=
  required_compacted hkeys hv Value.ofNat_ne_null (atLeast_int_eq_ok.2 rfl)

theorem defaultedNumber_compacted {absent : { n : Nat // 0 ≤ n }} {n : Nat}
    (hkeys : (es.map (·.1)).Nodup) (hv : lookup names.first es = some (.ofNat n)) :
    defaulted (compactedEntries es) names absent (atLeast 0) = .ok ⟨n, Nat.zero_le n⟩ :=
  defaulted_compacted hkeys hv Value.ofNat_ne_null (atLeast_int_eq_ok.2 rfl)

/-- A text that is written is found. -/
theorem requiredText_compacted {s : String} (hkeys : (es.map (·.1)).Nodup)
    (hv : lookup names.first es = some (.text s)) :
    required (compactedEntries es) names text = .ok s :=
  required_compacted hkeys hv Value.text_ne_null (text_eq_ok.2 rfl)

theorem defaultedText_compacted {absent s : String} (hkeys : (es.map (·.1)).Nodup)
    (hv : lookup names.first es = some (.text s)) :
    defaulted (compactedEntries es) names absent text = .ok s :=
  defaulted_compacted hkeys hv Value.text_ne_null (text_eq_ok.2 rfl)

/-- A name is read as what it is found to name. -/
theorem named_eq_ok {problem : List String → Problem} {name : α → String} {all : List α} {s : String}
    {a : α} (h : all.find? (fun b => name b = s) = some a) :
    named problem name all (.text s) = .ok a := by
  rw [named, h]

end Check

namespace Replacement

variable (form : Check.Form) (r : Replacement)

theorem nodup_keys : (r.entries.map (·.1)).Nodup := by
  show ["startOffset", "endOffset", "text"].Nodup
  decide

theorem check_compacted : check form r.toValue.compacted = .ok r := by
  have hstart : Check.required (compactedEntries r.entries) ⟨"startOffset", "start_offset"⟩
      (Check.atLeast 0) = .ok ⟨r.start, Nat.zero_le _⟩ :=
    Check.requiredNumber_compacted r.nodup_keys rfl
  have hstop : Check.required (compactedEntries r.entries) ⟨"endOffset", "end_offset"⟩
      (Check.atLeast 0) = .ok ⟨r.stop, Nat.zero_le _⟩ :=
    Check.requiredNumber_compacted r.nodup_keys rfl
  have htext : Check.defaulted (compactedEntries r.entries) (.plain "text") "" Check.text = .ok r.text :=
    Check.defaultedText_compacted r.nodup_keys rfl
  rw [toValue, Value.compacted, check, Check.record, hstart, hstop, htext, assemble,
    Checked.andThen_eq_ok]
  exact ⟨_, rfl, dif_pos r.start_le_stop⟩

end Replacement

namespace Fix

variable (form : Check.Form) (f : Fix)

theorem nodup_keys : (f.entries.map (·.1)).Nodup := by
  show ["replacements"].Nodup
  decide

theorem check_compacted : check form f.toValue.compacted = .ok f := by
  have hreplacements : Check.defaulted (compactedEntries f.entries) (.plain "replacements") []
      (Check.sequence form (Replacement.check form)) = .ok f.replacements :=
    Check.defaulted_compacted f.nodup_keys rfl Value.list_ne_null
      (Check.sequence_compacted form fun r _ => r.check_compacted form)
  rw [toValue, Value.compacted, check, Check.record, hreplacements]
  rfl

end Fix

namespace RuleMeta

variable (form : Check.Form) (m : RuleMeta)

theorem nodup_keys : (m.entries.map (·.1)).Nodup := by
  show ["docsUrl", "category", "fixable"].Nodup
  decide

theorem check_compacted : check form m.toValue.compacted = .ok m := by
  have hdocsUrl : Check.defaulted (compactedEntries m.entries) ⟨"docsUrl", "docs_url"⟩ none
      (Check.optional Check.text) = .ok m.docsUrl :=
    Check.optionalText_compacted m.nodup_keys rfl (.inl rfl)
  have hcategory : Check.defaulted (compactedEntries m.entries) (.plain "category") none
      (Check.optional Check.text) = .ok m.category :=
    Check.optionalText_compacted m.nodup_keys rfl (.inr rfl)
  have hfixable : Check.defaulted (compactedEntries m.entries) (.plain "fixable") none
      (Check.optional Check.truth) = .ok m.fixable :=
    Check.optional_compacted m.nodup_keys rfl (.inr rfl) fun b _ => ⟨Value.bool_ne_null, rfl⟩
  rw [toValue, Value.compacted, check, Check.record, hdocsUrl, hcategory, hfixable]
  rfl

end RuleMeta

namespace Issue

variable (form : Check.Form) (i : Issue)

theorem nodup_keys : (i.entries.map (·.1)).Nodup := by
  show ["path", "line", "column", "endLine", "endColumn", "severity", "ruleId", "message", "source",
    "fix", "meta"].Nodup
  decide

/-- **Issues** are read when no text of theirs is torn. -/
theorem check_compacted (hwhole : i.torn = {}) : check form i.toValue.compacted = .ok i := by
  have hendLine : 1 ≤ i.span.endLine := by
    have hline := i.span.one_le_line
    have hordered := i.span.ordered
    omega
  have hpath : Check.required (compactedEntries i.entries) (.plain "path") checkPath =
      .ok ⟨i.path, i.isPath⟩ :=
    Check.required_compacted i.nodup_keys rfl Value.text_ne_null (checkPath_eq_ok.2 rfl)
  have hline : Check.required (compactedEntries i.entries) (.plain "line") (Check.atLeast 1) =
      .ok ⟨i.span.line, i.span.one_le_line⟩ :=
    Check.requiredNumber_compacted i.nodup_keys rfl
  have hcolumn : Check.required (compactedEntries i.entries) (.plain "column") (Check.atLeast 1) =
      .ok ⟨i.span.column, i.span.one_le_column⟩ :=
    Check.requiredNumber_compacted i.nodup_keys rfl
  have hlast : Check.required (compactedEntries i.entries) ⟨"endLine", "end_line"⟩ (Check.atLeast 1) =
      .ok ⟨i.span.endLine, hendLine⟩ :=
    Check.requiredNumber_compacted i.nodup_keys rfl
  have hendColumn : Check.required (compactedEntries i.entries) ⟨"endColumn", "end_column"⟩
      (Check.atLeast 1) = .ok ⟨i.span.endColumn, i.span.one_le_endColumn⟩ :=
    Check.requiredNumber_compacted i.nodup_keys rfl
  have hseverity : Check.required (compactedEntries i.entries) (.plain "severity")
      (Check.named .notLevel Severity.name Severity.all) = .ok i.severity :=
    Check.required_compacted i.nodup_keys rfl Value.text_ne_null (Check.named_eq_ok i.severity.ofName?_name)
  have hrule : Check.required (compactedEntries i.entries) ⟨"ruleId", "rule_id"⟩ Check.someText =
      .ok ⟨i.ruleId, i.ruleId_ne⟩ :=
    Check.required_compacted i.nodup_keys rfl Value.text_ne_null (Check.someText_eq_ok.2 rfl)
  have hmessage : Check.required (compactedEntries i.entries) (.plain "message") Check.text =
      .ok i.message :=
    Check.requiredText_compacted i.nodup_keys rfl
  have hsource : Check.required (compactedEntries i.entries) (.plain "source")
      (Check.named .notNamed Linter.name Linter.all) = .ok i.source :=
    Check.required_compacted i.nodup_keys rfl Value.text_ne_null (Check.named_eq_ok i.source.ofName?_name)
  have hfix : Check.defaulted (compactedEntries i.entries) (.plain "fix") none
      (Check.optional (Fix.check form)) = .ok i.fix :=
    Check.optional_compacted i.nodup_keys rfl (.inr rfl) fun f _ => ⟨Value.table_ne_null, f.check_compacted form⟩
  have habout : Check.defaulted (compactedEntries i.entries) (.plain "meta") none
      (Check.optional (RuleMeta.check form)) = .ok i.about :=
    Check.optional_compacted i.nodup_keys rfl (.inr rfl) fun m _ => ⟨Value.table_ne_null, m.check_compacted form⟩
  rw [toValue, Value.compacted, check, Check.record, hpath, hline, hcolumn, hlast, hendColumn, hseverity,
    hrule, hmessage, hsource, hfix, habout, Checked.andThen_eq_ok]
  exact ⟨_, rfl, Parts.finish_eq_ok.2 ⟨rfl, rfl, rfl, rfl, rfl, rfl, rfl, rfl, rfl, rfl, rfl, hwhole⟩⟩

end Issue

namespace LinterRun

variable (form : Check.Form) (r : LinterRun)

theorem nodup_keys : (r.entries.map (·.1)).Nodup := by
  show ["name", "version", "success", "error", "warning", "durationMs", "filesProcessed"].Nodup
  decide

theorem check_compacted : check form r.toValue.compacted = .ok r := by
  have hname : Check.required (compactedEntries r.entries) (.plain "name")
      (Check.named .notNamed Linter.name Linter.all) = .ok r.linter :=
    Check.required_compacted r.nodup_keys rfl Value.text_ne_null (Check.named_eq_ok r.linter.ofName?_name)
  have hversion : Check.defaulted (compactedEntries r.entries) (.plain "version") "unknown" Check.text =
      .ok r.version :=
    Check.defaultedText_compacted r.nodup_keys rfl
  have hsuccess : Check.required (compactedEntries r.entries) (.plain "success") Check.truth =
      .ok r.success :=
    Check.required_compacted r.nodup_keys rfl Value.bool_ne_null rfl
  have herror : Check.defaulted (compactedEntries r.entries) (.plain "error") none
      (Check.optional Check.text) = .ok r.error :=
    Check.optionalText_compacted r.nodup_keys rfl (.inr rfl)
  have hwarning : Check.defaulted (compactedEntries r.entries) (.plain "warning") none
      (Check.optional Check.text) = .ok r.warning :=
    Check.optionalText_compacted r.nodup_keys rfl (.inr rfl)
  have hduration : Check.defaulted (compactedEntries r.entries) ⟨"durationMs", "duration_ms"⟩
      ⟨0, by omega⟩ (Check.atLeast 0) = .ok ⟨r.durationMs, Nat.zero_le _⟩ :=
    Check.defaultedNumber_compacted r.nodup_keys rfl
  have hfiles : Check.defaulted (compactedEntries r.entries) ⟨"filesProcessed", "files_processed"⟩
      ⟨0, by omega⟩ (Check.atLeast 0) = .ok ⟨r.filesProcessed, Nat.zero_le _⟩ :=
    Check.defaultedNumber_compacted r.nodup_keys rfl
  rw [toValue, Value.compacted, check, Check.record, hname, hversion, hsuccess, herror, hwarning,
    hduration, hfiles]
  rfl

end LinterRun

namespace Summary

variable (form : Check.Form) (s : Summary)

theorem nodup_keys : (s.entries.map (·.1)).Nodup := by
  show ["total", "errors", "warnings", "info", "fixable"].Nodup
  decide

theorem check_compacted : check form s.toValue.compacted = .ok s := by
  have hcount {name : String} {n : Nat} (hn : lookup name s.entries = some (.ofNat n)) :
      (Check.defaulted (compactedEntries s.entries) (.plain name) ⟨0, by omega⟩ (Check.atLeast 0)).map
        (·.1) = .ok n := by
    rw [Check.defaultedNumber_compacted s.nodup_keys hn]
    rfl
  rw [toValue, Value.compacted, check, Check.record]
  dsimp only
  rw [@hcount "total" s.total rfl, @hcount "errors" s.errors rfl, @hcount "warnings" s.warnings rfl,
    @hcount "info" s.info rfl, @hcount "fixable" s.fixable rfl]
  rfl

end Summary

namespace Report

variable (form : Check.Form) (r : Report)

theorem nodup_keys : (r.entries.map (·.1)).Nodup := by
  show ["timestamp", "cwd", "durationMs", "linters", "issues", "summary"].Nodup
  decide

/-- **Reports** are read when their stamp lies in the calendar and no text is torn: their summary counts
their issues. -/
theorem check_compacted (ht : r.timestamp.InCalendar) (hwhole : ∀ i ∈ r.issues, i.torn = {}) :
    check form r.toValue.compacted = .ok r := by
  have htimestamp : Check.required (compactedEntries r.entries) (.plain "timestamp") Stamp.check =
      .ok r.timestamp := by
    refine Check.required_compacted r.nodup_keys rfl Value.text_ne_null ?_
    show Stamp.check (.text (String.ofList r.timestamp.text)) = _
    rw [Stamp.check, String.toList_ofList, Stamp.ofText_text ht]
    rfl
  have hcwd : Check.required (compactedEntries r.entries) (.plain "cwd") Check.text = .ok r.cwd :=
    Check.requiredText_compacted r.nodup_keys rfl
  have hduration : Check.defaulted (compactedEntries r.entries) ⟨"durationMs", "duration_ms"⟩
      ⟨0, by omega⟩ (Check.atLeast 0) = .ok ⟨r.durationMs, Nat.zero_le _⟩ :=
    Check.defaultedNumber_compacted r.nodup_keys rfl
  have hlinters : Check.defaulted (compactedEntries r.entries) (.plain "linters") []
      (Check.sequence form (LinterRun.check form)) = .ok r.linters :=
    Check.defaulted_compacted r.nodup_keys rfl Value.list_ne_null
      (Check.sequence_compacted form fun l _ => l.check_compacted form)
  have hissues : Check.defaulted (compactedEntries r.entries) (.plain "issues") []
      (Check.sequence form (Issue.check form)) = .ok r.issues :=
    Check.defaulted_compacted r.nodup_keys rfl Value.list_ne_null
      (Check.sequence_compacted form fun i hi => i.check_compacted form (hwhole i hi))
  have hsummary : Check.defaulted (compactedEntries r.entries) (.plain "summary") {}
      (Summary.check form) = .ok r.summary :=
    Check.defaulted_compacted r.nodup_keys rfl Value.table_ne_null (r.summary.check_compacted form)
  rw [toValue, Value.compacted, check, Check.record]
  dsimp only
  rw [htimestamp, hcwd, hduration, hlinters, hissues, hsummary, Checked.andThen_eq_ok]
  exact ⟨(r, r.summary), rfl, if_pos rfl⟩

end Report
end LintMerge
