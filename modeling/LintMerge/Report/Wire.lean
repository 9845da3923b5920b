/-
# Reports as text

A report is written as a JSON document (`Report.to_json`), on one line or indented, in
which nothing is null: what is absent is left out. A report with a torn text is not
written: the first of its halves is told.
-/

import LintMerge.Json.Strict
import LintMerge.Json.Writer
import LintMerge.Report.Basic

namespace LintMerge
namespace Report

/-- The text of a report. -/
def write (r : Report) (pretty : Bool) : String :=
  Json.write (if pretty then .indented else .compact) r.toValue.compacted

/-- The torn texts of a report in the order in which they are written. -/
def torn (r : Report) : List Torn := r.issues.flatMap fun i => i.torn.list

theorem torn_eq_nil_iff {r : Report} : r.torn = [] ↔ ∀ i ∈ r.issues, i.torn = {} := by
  simp only [torn, List.flatMap_eq_nil_iff, Issue.TornTexts.list_eq_nil_iff]

/-- Why a report cannot be written, if it cannot. -/
def writeFault? (r : Report) : Option Unencodable := r.torn.head?.map Torn.fault

/-- The report that a text holds (`Report.from_json`). -/
def read (s : String) : Checked Report :=
  match Json.Strict.document s.toList with
  | .error f => .refuse (.unreadable (f.message s.toList))
  | .ok v => check .json v

end Report
end LintMerge
