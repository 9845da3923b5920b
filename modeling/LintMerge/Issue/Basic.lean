/-
# Issues

An issue (`Issue`) is what a linter found at a place of a file: a span of positions, how
grave it is, the rule that found it and what it says. A fix is a list of
replacements of spans of the file's text; they are applied from the last to the
first (`Fix.in_application_order`), so that no replacement moves the text of another.

Paths of issues are relative to the working root, spans run forward and rules have
a name: a record that breaks one of these rules is refused.
-/

import LintMerge.Check.Field
import LintMerge.Linter
import LintMerge.Path
import LintMerge.Severity

namespace LintMerge

/-- New text for the characters from `start` to before `stop`. -/
structure Replacement where
  start : Nat
  stop : Nat
  text : String
  start_le_stop : start ≤ stop
  deriving DecidableEq, Repr

namespace Replacement

/-- Whether text goes and none comes. -/
def isDeletion (r : Replacement) : Bool := r.text.isEmpty

/-- Whether a replacement starts after another, or there and ends no earlier. -/
def notBefore (r s : Replacement) : Bool := s.start < r.start || (s.start = r.start && s.stop ≤ r.stop)

/-- A replacement whose parts have been checked. -/
def assemble (start stop : Checked { n : Nat // 0 ≤ n }) (text : Checked String) :
    Checked Replacement :=
  (Checked.map (fun (a : { n : Nat // 0 ≤ n }) b t => (a.1, b.1, t)) start <*> stop <*> text).andThen
    fun (start, stop, text) =>
      if h : start ≤ stop then .ok ⟨start, stop, text, h⟩
      else .refuse (.broken s!"replacement end offset {stop} precedes start offset {start}")

/-- The replacement that a value describes. -/
def check (form : Check.Form) (v : Value) : Checked Replacement :=
  Check.record form "Replacement" v fun entries =>
    assemble (Check.required entries ⟨"startOffset", "start_offset"⟩ (Check.atLeast 0))
      (Check.required entries ⟨"endOffset", "end_offset"⟩ (Check.atLeast 0))
      (Check.defaulted entries (.plain "text") "" Check.text)

/-- The replacement of given parts. -/
def make (start stop : Int) (text : String) : Checked Replacement :=
  assemble ((Check.atLeast 0 (.int start)).under (.key "start_offset"))
    ((Check.atLeast 0 (.int stop)).under (.key "end_offset")) (.ok text)

/-- The fields of a replacement. -/
def entries (r : Replacement) : List (String × Value) :=
  [("startOffset", .ofNat r.start), ("endOffset", .ofNat r.stop), ("text", .text r.text)]

/-- A replacement as a value. -/
def toValue (r : Replacement) : Value := .table r.entries

end Replacement

/-- A fix of an issue. -/
structure Fix where
  replacements : List Replacement
  deriving DecidableEq, Repr

namespace Fix

/-- The replacements, the last in the text first. -/
def inApplicationOrder (f : Fix) : List Replacement :=
  f.replacements.mergeSort Replacement.notBefore

/-- The fix that a value describes. -/
def check (form : Check.Form) (v : Value) : Checked Fix :=
  Check.record form "Fix" v fun entries =>
    Fix.mk <$> Check.defaulted entries (.plain "replacements") []
      (Check.sequence form (Replacement.check form))

/-- The field of a fix. -/
def entries (f : Fix) : List (String × Value) :=
  [("replacements", .list (f.replacements.map Replacement.toValue))]

/-- A fix as a value. -/
def toValue (f : Fix) : Value := .table f.entries

end Fix

/-- What is known of the rule behind an issue. -/
structure RuleMeta where
  docsUrl : Option String
  category : Option String
  fixable : Option Bool
  deriving DecidableEq, Repr

namespace RuleMeta

/-- What a value tells of a rule. -/
def check (form : Check.Form) (v : Value) : Checked RuleMeta :=
  Check.record form "RuleMeta" v fun entries =>
    RuleMeta.mk <$>
      Check.defaulted entries ⟨"docsUrl", "docs_url"⟩ none (Check.optional Check.text) <*>
      Check.defaulted entries (.plain "category") none (Check.optional Check.text) <*>
      Check.defaulted entries (.plain "fixable") none (Check.optional Check.truth)

/-- The fields of what is known of a rule, null for what is not known. -/
def entries (m : RuleMeta) : List (String × Value) :=
  [("docsUrl", .ofText? m.docsUrl), ("category", .ofText? m.category),
    ("fixable", (m.fixable.map Value.bool).getD .null)]

/-- What is known of a rule as a value. -/
def toValue (m : RuleMeta) : Value := .table m.entries

end RuleMeta

/-- A part of a file, from a position to another; both count from 1. -/
structure Span where
  line : Nat
  column : Nat
  endLine : Nat
  endColumn : Nat
  one_le_line : 1 ≤ line
  one_le_column : 1 ≤ column
  one_le_endColumn : 1 ≤ endColumn
  ordered : line < endLine ∨ (line = endLine ∧ column ≤ endColumn)
  deriving DecidableEq, Repr

/-- Whether a text can be the path of an issue. -/
def Issue.IsPath (s : String) : Prop := s ≠ "" ∧ Path.isAbsoluteText s = false

/-- The texts of an issue that hold halves of pairs, as they were read. -/
structure Issue.TornTexts where
  path : Option Torn := none
  message : Option Torn := none
  /-- of the fix or of what is known of the rule -/
  detail : Option Torn := none
  deriving DecidableEq, Repr

/-- What a linter found (`Issue`). Each text holds the replacement character for a half of a pair. -/
structure Issue where
  path : String
  span : Span
  severity : Severity
  ruleId : String
  message : String
  source : Linter
  fix : Option Fix
  about : Option RuleMeta
  isPath : Issue.IsPath path
  ruleId_ne : ruleId ≠ ""
  torn : Issue.TornTexts := {}
  deriving DecidableEq, Repr

namespace Issue

/-- The torn texts of an issue in the order in which they are written. -/
def TornTexts.list (t : TornTexts) : List Torn := t.path.toList ++ t.message.toList ++ t.detail.toList

theorem TornTexts.eq_empty_iff {t : TornTexts} :
    t = {} ↔ (t.path = none ∧ t.message = none) ∧ t.detail = none := by
  obtain ⟨path, message, detail⟩ := t
  simp [and_assoc]

theorem TornTexts.list_eq_nil_iff {t : TornTexts} : t.list = [] ↔ t = {} := by
  simp [list, eq_empty_iff, and_assoc]

/-- The path of an issue as it was read. -/
def spelling (i : Issue) : List Glyph := (i.torn.path.map Torn.glyphs).getD (Glyph.ofString i.path)

/-- Whether an issue has something to replace. -/
def fixable (i : Issue) : Bool :=
  match i.fix with
  | some f => !f.replacements.isEmpty
  | none => false

/-- The path of an issue (`_require_relative_path`). -/
def checkPath (v : Value) : Checked { s : String // IsPath s } :=
  (Check.text v).andThen fun s =>
    if hs : s = "" then .refuse (.broken "issue path must not be empty")
    else
      match ha : Path.isAbsoluteText s with
      | true => .refuse (.broken
          ("issue path must be relative to the working root, got " ++ quoted s))
      | false => .ok ⟨s, hs, ha⟩

/-- The parts of an issue, each of them checked. -/
structure Parts where
  path : { s : String // IsPath s }
  line : { n : Nat // 1 ≤ n }
  column : { n : Nat // 1 ≤ n }
  endLine : { n : Nat // 1 ≤ n }
  endColumn : { n : Nat // 1 ≤ n }
  severity : Severity
  ruleId : { s : String // s ≠ "" }
  message : String
  source : Linter
  fix : Option Fix
  about : Option RuleMeta

/-- The issue of checked parts, if its span runs forward (`_check_span`). -/
def Parts.finish (torn : TornTexts) (p : Parts) : Checked Issue :=
  let path := (torn.path.map Torn.lossyText).getD p.path.1
  if p.endLine.1 < p.line.1 then
    .refuse (.broken
      s!"end line {p.endLine.1} precedes start line {p.line.1} in {path}")
  else if h : p.line.1 < p.endLine.1 ∨ (p.line.1 = p.endLine.1 ∧ p.column.1 ≤ p.endColumn.1) then
    .ok ⟨p.path.1, ⟨p.line.1, p.column.1, p.endLine.1, p.endColumn.1, p.line.2, p.column.2,
      p.endColumn.2, h⟩, p.severity, p.ruleId.1, p.message, p.source, p.fix, p.about, p.path.2,
      p.ruleId.2, torn⟩
  else
    .refuse (.broken
      s!"end column {p.endColumn.1} precedes start column {p.column.1} on line {p.line.1} of {path}")

/-- The issue that a value describes. -/
def check (form : Check.Form) (v : Value) : Checked Issue :=
  Check.record form "Issue" v fun es =>
    (Parts.mk <$>
      Check.required es (.plain "path") checkPath <*>
      Check.required es (.plain "line") (Check.atLeast 1) <*>
      Check.required es (.plain "column") (Check.atLeast 1) <*>
      Check.required es ⟨"endLine", "end_line"⟩ (Check.atLeast 1) <*>
      Check.required es ⟨"endColumn", "end_column"⟩ (Check.atLeast 1) <*>
      Check.required es (.plain "severity") (Check.named .notLevel Severity.name Severity.all) <*>
      Check.required es ⟨"ruleId", "rule_id"⟩ Check.someText <*>
      Check.required es (.plain "message") Check.text <*>
      Check.required es (.plain "source") (Check.named .notNamed Linter.name Linter.all) <*>
      Check.defaulted es (.plain "fix") none (Check.optional (Fix.check form)) <*>
      Check.defaulted es (.plain "meta") none (Check.optional (RuleMeta.check form))).andThen
        (Parts.finish {})

/-- What a linter says it found. -/
structure Draft where
  path : String
  line : Int
  column : Int
  endLine : Int
  endColumn : Int
  severity : Severity
  ruleId : String
  message : String
  source : Linter
  fix : Option Fix := none
  about : Option RuleMeta := none
  /-- the name of the rule, if it holds halves of pairs -/
  tornRule : Option Torn := none
  torn : TornTexts := {}

/-- The name of the rule of a draft as a value. -/
def Draft.rule (d : Draft) : Value :=
  match d.tornRule with
  | some t => .torn t
  | none => .text d.ruleId

/-- The issue of a draft. -/
def ofDraft (d : Draft) : Checked Issue :=
  let number (name : String) (n : Int) := (Check.atLeast 1 (.int n)).under (.key name)
  (Parts.mk <$>
    (checkPath (.text d.path)).under (.key "path") <*>
    number "line" d.line <*>
    number "column" d.column <*>
    number "end_line" d.endLine <*>
    number "end_column" d.endColumn <*>
    .ok d.severity <*>
    (Check.someText d.rule).under (.key "rule_id") <*>
    .ok d.message <*>
    .ok d.source <*>
    .ok d.fix <*>
    .ok d.about).andThen (Parts.finish d.torn)

/-- The fields of an issue, null for what it lacks. -/
def entries (i : Issue) : List (String × Value) :=
  [("path", .text i.path), ("line", .ofNat i.span.line), ("column", .ofNat i.span.column),
    ("endLine", .ofNat i.span.endLine), ("endColumn", .ofNat i.span.endColumn),
    ("severity", .text i.severity.name), ("ruleId", .text i.ruleId), ("message", .text i.message),
    ("source", .text i.source.name), ("fix", (i.fix.map Fix.toValue).getD .null),
    ("meta", (i.about.map RuleMeta.toValue).getD .null)]

/-- An issue as a value. -/
def toValue (i : Issue) : Value := .table i.entries

end Issue
end LintMerge
