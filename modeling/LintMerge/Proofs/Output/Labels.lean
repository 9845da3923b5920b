/-
# Labels of oxlint

Oxlint prints a list of diagnostics, each with a list of labels, and the first label that is a table
tells where the diagnostic lies (`Oxlint.Places`). What has no such place is left out, and does no
harm to what stands beside it; what has one is kept, in its order (`Oxlint.Tells`), unless one of
the places is no span, for which all of the output is refused. Labels behind the first one are not
looked at: diagnostics that differ in nothing else are read alike (`Oxlint.parse_labels`).
-/

import Mathlib
import LintMerge.Proofs.Output.Refusals

namespace LintMerge
namespace Output
namespace Oxlint

variable {root : Path} {d d' : Value} {file : String} {line column length : Int} {i : Issue}

/-- The place of a diagnostic: a file that has a name, and of the first label a line, a column and a
length, which is 0 where the label tells none. -/
structure Places (d : Value) (file : String) (line column length : Int) : Prop where
  table : isTable d = true
  named : text? (d.field "filename") = some file ∧ file ≠ ""
  label : ∃ label, FirstTable (d.field "labels") label ∧ isTable (label.field "span") = true ∧
    integer? ((label.field "span").field "line") = some line ∧
    integer? ((label.field "span").field "column") = some column ∧
    length = (integer? ((label.field "span").field "length")).getD 0

/-- A diagnostic that has a place. -/
def Located (d : Value) : Prop := ∃ file line column length, Places d file line column length

theorem Located.isTable (h : Located d) : isTable d = true := by
  obtain ⟨_, _, _, _, hplaces⟩ := h
  exact hplaces.table

/-- A diagnostic whose place is no span. -/
def Misplaced (d : Value) : Prop :=
  ∃ file line column length, Places d file line column length ∧ (line < 1 ∨ column < 1 ∨ length < 0)

theorem Misplaced.located (h : Misplaced d) : Located d := by
  obtain ⟨_, _, _, _, hplaces, -⟩ := h
  exact ⟨_, _, _, _, hplaces⟩

/-- The span that the first label of a diagnostic tells. -/
def spanOf (d : Value) : Value := ((tables (d.field "labels")).head?.map (·.field "span")).getD .null

theorem places_iff : Places d file line column length ↔
    integer? ((spanOf d).field "line") = some line ∧
      integer? ((spanOf d).field "column") = some column ∧
      someText? (d.field "filename") = some file ∧
      length = (integer? ((spanOf d).field "length")).getD 0 := by
  rw [someText?_eq_some_iff]
  constructor
  · rintro ⟨-, hfile, label, hlabel, -, hline, hcolumn, hlength⟩
    rw [spanOf, head?_tables_eq_some_iff.2 hlabel]
    exact ⟨hline, hcolumn, hfile, hlength⟩
  · rintro ⟨hline, hcolumn, hfile, hlength⟩
    have htable : isTable d = true := isTable_of_field fun h => by
      rw [h] at hfile
      cases hfile.1
    have hspan : isTable (spanOf d) = true := isTable_of_field fun h => by
      rw [h] at hline
      cases hline
    rw [spanOf] at hline hcolumn hlength hspan
    cases hhead : (tables (d.field "labels")).head? with
    | none =>
      rw [hhead] at hspan
      cases hspan
    | some label =>
      rw [hhead] at hline hcolumn hlength hspan
      exact ⟨htable, hfile, label, head?_tables_eq_some_iff.1 hhead, hspan, hline, hcolumn, hlength⟩

/-- A diagnostic has one place at most. -/
theorem Places.unique {file' : String} {line' column' length' : Int}
    (h : Places d file line column length) (h' : Places d file' line' column' length') :
    file = file' ∧ line = line' ∧ column = column' ∧ length = length' := by
  obtain ⟨hline, hcolumn, hfile, rfl⟩ := places_iff.1 h
  obtain ⟨hline', hcolumn', hfile', rfl⟩ := places_iff.1 h'
  rw [hline, Option.some.injEq] at hline'
  rw [hcolumn, Option.some.injEq] at hcolumn'
  rw [hfile, Option.some.injEq] at hfile'
  exact ⟨hfile', hline', hcolumn', rfl⟩

instance : DecidablePred Located := fun d =>
  decidable_of_iff ((integer? ((spanOf d).field "line")).isSome ∧
    (integer? ((spanOf d).field "column")).isSome ∧ (someText? (d.field "filename")).isSome) (by
    simp only [Located, places_iff, Option.isSome_iff_exists]
    constructor
    · rintro ⟨⟨line, hline⟩, ⟨column, hcolumn⟩, file, hfile⟩
      exact ⟨file, line, column, _, hline, hcolumn, hfile, rfl⟩
    · rintro ⟨file, line, column, _, hline, hcolumn, hfile, -⟩
      exact ⟨⟨line, hline⟩, ⟨column, hcolumn⟩, file, hfile⟩)

instance : DecidablePred Misplaced := fun d =>
  decidable_of_iff (∃ line ∈ integer? ((spanOf d).field "line"),
    ∃ column ∈ integer? ((spanOf d).field "column"), ∃ _ ∈ someText? (d.field "filename"),
      line < 1 ∨ column < 1 ∨ (integer? ((spanOf d).field "length")).getD 0 < 0) (by
    simp only [Misplaced, places_iff]
    constructor
    · rintro ⟨line, hline, column, hcolumn, file, hfile, h⟩
      exact ⟨file, line, column, _, ⟨hline, hcolumn, hfile, rfl⟩, h⟩
    · rintro ⟨file, line, column, _, ⟨hline, hcolumn, hfile, rfl⟩, h⟩
      exact ⟨line, hline, column, hcolumn, file, hfile, h⟩)

/-- An issue that says what a diagnostic says. -/
structure Tells (root : Path) (d : Value) (i : Issue) : Prop where
  place : ∃ file line column length, Places d file line column length ∧ i.path = root.key file ∧
    (i.span.line : Int) = line ∧ (i.span.column : Int) = column ∧ (i.span.endLine : Int) = line ∧
    (i.span.endColumn : Int) = column + length
  rule : ∀ rule, text? (d.field "code") = some rule → rule ≠ "" → i.ruleId = "oxlint/" ++ rule
  noRule : text? (d.field "code") = none ∨ text? (d.field "code") = some "" →
    i.ruleId = "oxlint/parse-error"
  text : i.message = (text? (d.field "message")).getD ""
  source : i.source = .oxlint
  fix : i.fix = none

/-- A diagnostic without a place is left out. -/
theorem issue?_of_not_located (h : ¬ Located d) : issue? root d = .ok none := by
  rw [issue?]
  split
  · next hline hcolumn hfile =>
    exact absurd ⟨_, _, _, _, places_iff.2 ⟨hline, hcolumn, hfile, rfl⟩⟩ h
  · rfl

/-- A diagnostic with a place is refused where the place is no span. -/
theorem judged_issue? (root : Path) (h : Places d file line column length)
    (hwhole : torn? (d.field "code") = none) :
    Judged (line < 1 ∨ column < 1 ∨ length < 0) (fun found => ∃ i, found = some i ∧ Tells root d i)
      (issue? root d) := by
  obtain ⟨hline, hcolumn, hfile, hlength⟩ := places_iff.1 h
  subst hlength
  have hmisplaced : Span.Misplaced line column line
      (column + (integer? ((spanOf d).field "length")).getD 0) ↔
      line < 1 ∨ column < 1 ∨ (integer? ((spanOf d).field "length")).getD 0 < 0 := by
    unfold Span.Misplaced
    omega
  rw [issue?]
  split
  · next hline' hcolumn' hfile' =>
    cases hline.symm.trans hline'
    cases hcolumn.symm.trans hcolumn'
    cases hfile.symm.trans hfile'
    refine Judged.bind_pure ((judged_ofDraft (Issue.isPath_key root file) (ruleOf_ne_empty _ _)
      hwhole).mono hmisplaced fun _ h => h) fun i hi => ?_
    obtain ⟨hpath, hline, hcolumn, hendLine, hendColumn, -, hrule, htext, hsource, hfix, -⟩ :=
      Issue.ofDraft_eq_ok.1 hi
    refine ⟨i, rfl, ⟨file, line, column, _, h, hpath, hline, hcolumn, hendLine, hendColumn⟩, ?_, ?_,
      htext, hsource, hfix⟩
    · intro rule hsaid hne
      rw [hrule, ruleText_of_ne hsaid hne]
      rfl
    · intro hsaid
      rw [hrule, ruleText_of_none hsaid]
      rfl
  · next hnone => exact absurd hfile (hnone _ _ _ hline hcolumn)

/-- Diagnostics that differ at most in labels behind the first one. -/
structure SameFirst (d d' : Value) : Prop where
  table : isTable d = isTable d'
  label : ∀ label, FirstTable (d.field "labels") label ↔ FirstTable (d'.field "labels") label
  field : ∀ key, key ≠ "labels" → d.field key = d'.field key

/-- Diagnostics that differ in nothing else are read alike. -/
theorem issue?_congr (root : Path) (h : SameFirst d d') : issue? root d = issue? root d' := by
  have hhead : (tables (d.field "labels")).head? = (tables (d'.field "labels")).head? :=
    Option.ext fun label => by
      rw [head?_tables_eq_some_iff, head?_tables_eq_some_iff]
      exact h.label label
  have hfield : ∀ key ∈ ["filename", "url", "severity", "code", "message"],
      d.field key = d'.field key := by
    intro key hkey
    refine h.field key fun hlabels => ?_
    rw [hlabels] at hkey
    exact absurd hkey (by decide)
  simp only [issue?, hhead, hfield, List.mem_cons, true_or, or_true]

theorem mapM_issue?_congr (root : Path) {items items' : List Value}
    (h : List.Forall₂ SameFirst items items') :
    (items.filter isTable).mapM (issue? root) = (items'.filter isTable).mapM (issue? root) := by
  induction h with
  | nil => rfl
  | @cons d d' items items' hd _ ih =>
    rw [List.filter_cons, List.filter_cons, ← hd.table]
    split
    · rw [List.mapM_cons, List.mapM_cons, issue?_congr root hd, ih]
    · exact ih

/-- **A diagnostic is kept where its first label places it.** If no half of a pair stands in the name of
a rule, diagnostics are refused exactly when the place of one of them is no span; otherwise there is one issue for each that has a place, in their
order, and none for the others. What else stands among their labels makes no difference. -/
theorem parse_labels (root : Path) {output : String} {items : List Value}
    (hitems : Diagnoses output items) (hwhole : ∀ d ∈ items, torn? (d.field "code") = none) :
    (Invalid (parse root output) ↔ ∃ d ∈ items, Misplaced d) ∧
    ((¬ ∃ d ∈ items, Misplaced d) → ∃ issues, parse root output = .ok issues ∧
      List.Forall₂ (Tells root) (items.filter Located) issues) ∧
    ∀ (output' : String) (items' : List Value), Diagnoses output' items' →
      List.Forall₂ SameFirst items items' → parse root output' = parse root output := by
  have hlocated (d : Value) (hd : d ∈ items) (h : Located d) : Judged (Misplaced d)
      (fun found => ∃ i, found = some i ∧ Tells root d i) (issue? root d) := by
    obtain ⟨file, line, column, length, hplaces⟩ := h
    refine (judged_issue? root hplaces (hwhole d hd)).mono ⟨fun h => ⟨_, _, _, _, hplaces, h⟩, ?_⟩ fun _ h => h
    rintro ⟨_, _, _, _, hplaces', h⟩
    obtain ⟨rfl, rfl, rfl, rfl⟩ := hplaces.unique hplaces'
    exact h
  have hparse : Judged (∃ d ∈ items, Misplaced d)
      (List.Forall₂ (Tells root) (items.filter Located)) (parse root output) :=
    judged_diagnostics hitems (fun _ h => h.isTable) (fun _ h => h.located)
      (fun _ h => issue?_of_not_located h) hlocated
  refine ⟨hparse.invalid_iff, hparse.exists_ok, fun output' items' hitems' hsame => ?_⟩
  rw [parse, parse, hitems.diagnostics_eq, hitems'.diagnostics_eq]
  show located _ _ = located _ _
  rw [located, located, mapM_issue?_congr root hsame]

/-- A diagnostic with some labels. -/
def labelled (labels : List Value) : Value :=
  .table [("filename", .text "a"), ("labels", .list labels)]

/-- A label on a line. -/
def labelOn (line : Int) : Value := .table [("span", .table [("line", .int line), ("column", .int 2)])]

/-- Labels behind the first one make no difference between diagnostics. -/
theorem sameFirst_labelled (line : Int) (labels labels' : List Value) :
    SameFirst (labelled (labelOn line :: labels)) (labelled (labelOn line :: labels')) where
  table := rfl
  label l := by rw [← head?_tables_eq_some_iff, ← head?_tables_eq_some_iff]; rfl
  field key hkey := by simp [labelled, Value.field, Value.lookup, Ne.symm hkey]

/-- The hypotheses of `parse_labels` hold together. Of two diagnostics the second one has no place, and
the first one is read at its first label, alone and with a second one that is on line 0; a first label
on line 0 is refused. -/
theorem parse_labels_sample : ∃ one two other : String,
    Diagnoses one [labelled [labelOn 1], .table []] ∧
    Diagnoses two [labelled [labelOn 1, labelOn 0], .table []] ∧
    Diagnoses other [labelled [labelOn 0], .table []] ∧
    (∃ i, parse ⟨1, ["project"]⟩ one = .ok [i] ∧ i.span.line = 1 ∧ i.span.endColumn = 2) ∧
    parse ⟨1, ["project"]⟩ two = parse ⟨1, ["project"]⟩ one ∧
    Invalid (parse ⟨1, ["project"]⟩ other) := by
  have hone : Diagnoses
      ("\x7b\"diagnostics\":[\x7b\"filename\":\"a\",\"labels\":[" ++
        "\x7b\"span\":\x7b\"line\":1,\"column\":2\x7d\x7d]\x7d,\x7b\x7d]\x7d")
      [labelled [labelOn 1], .table []] := diagnoses_of_prints (by cbv)
  have htwo : Diagnoses
      ("\x7b\"diagnostics\":[\x7b\"filename\":\"a\",\"labels\":[" ++
        "\x7b\"span\":\x7b\"line\":1,\"column\":2\x7d\x7d," ++
        "\x7b\"span\":\x7b\"line\":0,\"column\":2\x7d\x7d]\x7d,\x7b\x7d]\x7d")
      [labelled [labelOn 1, labelOn 0], .table []] := diagnoses_of_prints (by cbv)
  have hother : Diagnoses
      ("\x7b\"diagnostics\":[\x7b\"filename\":\"a\",\"labels\":[" ++
        "\x7b\"span\":\x7b\"line\":0,\"column\":2\x7d\x7d]\x7d,\x7b\x7d]\x7d")
      [labelled [labelOn 0], .table []] := diagnoses_of_prints (by cbv)
  have hplaces : Places (labelled [labelOn 1]) "a" 1 2 0 :=
    places_iff.2 ⟨rfl, rfl, by decide, rfl⟩
  obtain ⟨-, hread, halike⟩ := parse_labels ⟨1, ["project"]⟩ hone (by decide)
  obtain ⟨hrefused, -⟩ := parse_labels ⟨1, ["project"]⟩ hother (by decide)
  obtain ⟨issues, hissues, htells⟩ := hread (by decide)
  obtain _ | ⟨htold, _ | _⟩ := htells
  obtain ⟨_, _, _, _, hplaces', -, hline, -, -, hendColumn⟩ := htold.place
  obtain ⟨-, rfl, rfl, rfl⟩ := hplaces.unique hplaces'
  refine ⟨_, _, _, hone, htwo, hother, ⟨_, hissues, by omega, by omega⟩,
    halike _ _ htwo (.cons (sameFirst_labelled 1 [] [labelOn 0]) (.cons ?_ .nil)),
    hrefused.2 (by decide)⟩
  exact ⟨rfl, fun _ => Iff.rfl, fun _ _ => rfl⟩

end Oxlint
end Output
end LintMerge
