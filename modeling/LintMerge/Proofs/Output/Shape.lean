/-
# Output of the wrong shape

Three linters print one document each, whose shape is known (`Linter.Expects`): a list of
files, or a table in which the diagnostics are a list. Blank output holds no issue. All
other output is refused unless it is a document of that shape, because a list without
issues would say that nothing is wrong (`Linter.prints_of_parse`).

There is one way around this. A linter that prints `null` is taken for one that prints
nothing, so its output passes although it is neither blank nor of the right shape
(`Linter.parse_unexpected_iff`, `Linter.not_parse_unexpected`).
-/

import Mathlib.Data.List.TakeWhile
import LintMerge.Output.Reader
import LintMerge.Proofs.Check.Outcome
import LintMerge.Proofs.Json.Agreement
import LintMerge.Proofs.Json.Documents
import LintMerge.Proofs.Text.Splitting

namespace LintMerge

/-- A text is blank when nothing is left of it without the white space around it. -/
theorem isBlankText_iff {s : String} : isBlankText s = true ↔ Text.trim s.toList = [] := by
  rw [isBlankText, List.all_eq_true, Text.trim, Text.trimEnd, List.reverse_eq_nil_iff,
    List.dropWhile_eq_nil_iff]
  simp only [List.mem_reverse, Text.trimStart]
  constructor
  · intro h c hc
    exact h c ((List.dropWhile_sublist _).subset hc)
  · intro h c hc
    rw [← List.takeWhile_append_dropWhile (p := Text.isBlank) (l := s.toList), List.mem_append] at hc
    exact hc.elim List.mem_takeWhile_imp (h c)

namespace Output

/-- The document that some output is, but for the white space around it. -/
def Prints (output : String) (v : Value) : Prop := Json.document (Text.trim output.toList) = .ok v

/-- An entry of a list of files is a table that names its file. -/
def NamesFile (entry : Value) : Prop :=
  isTable entry = true ∧ someText? (entry.field "filePath") ≠ none

/-- A table in which the diagnostics, if there are any, are a list. -/
def HasDiagnostics (v : Value) : Prop :=
  ∃ entries, v = .table entries ∧
    ∀ d, Value.lookup "diagnostics" entries = some d → ∃ items, d = .list items

end Output

/-- The shape of the document that a linter prints; the type checker prints none. -/
def Linter.Expects : Linter → Value → Prop
  | eslint, v => ∃ entries, v = .list entries ∧ ∀ e ∈ entries, Output.NamesFile e
  | oxlint, v | biome, v => Output.HasDiagnostics v
  | tsc, _ => False

namespace Output

variable {tool what output : String} {root : Path} {v : Value} {issues : List Issue}

/-- Output without a document is blank or a null. -/
theorem load_eq_ok_none_iff :
    load tool output = .ok none ↔ isBlankText output = true ∨ Prints output .null := by
  rw [isBlankText_iff, load, Prints]
  cases htrim : Text.trim output.toList with
  | nil => simp
  | cons c rest =>
    dsimp only [List.isEmpty_cons]
    rw [if_neg Bool.false_ne_true]
    cases hdoc : Json.document (c :: rest) with
    | error e => cases e <;> simp
    | ok v => cases v <;> simp

/-- The document that is read is the one that is printed. -/
theorem prints_of_load (h : load tool output = .ok (some v)) : Prints output v := by
  rw [load] at h
  split at h
  · cases h
  · split at h
    · cases h
    · next hdoc =>
      cases h
      exact hdoc
    · cases h
    · cases h

/-- A document that is printed is read, unless it is a null. -/
theorem load_of_prints (h : Prints output v) (hv : v ≠ .null) : load tool output = .ok (some v) := by
  rw [load]
  split
  · next hempty =>
    rw [Prints, List.isEmpty_iff.1 hempty] at h
    cases h
  · rw [show Json.document (Text.trim output.toList) = _ from h]
    cases v with
    | null => exact absurd rfl hv
    | _ => rfl

theorem table_eq_ok {entries : List (String × Value)} :
    table tool what v = .ok entries ↔ v = .table entries := by
  cases v <;> simp [table]

theorem list_eq_ok {items : List Value} : list tool what v = .ok items ↔ v = .list items := by
  cases v <;> simp [list]

/-- Diagnostics are read from no document or from a table of the right shape. -/
theorem load_of_diagnostics {ds : List Value} (h : diagnostics tool output = .ok ds) :
    (load tool output = .ok none ∧ ds = []) ∨ ∃ v, Prints output v ∧ HasDiagnostics v := by
  obtain ⟨document?, hload, h⟩ := Faulty.bind_eq_ok.1 h
  cases document? with
  | none => exact .inl ⟨hload, (Faulty.pure_eq_ok.1 h).symm⟩
  | some v =>
    obtain ⟨entries, htable, h⟩ := Faulty.bind_eq_ok.1 h
    obtain ⟨items, hlist, -⟩ := Faulty.bind_eq_ok.1 h
    refine .inr ⟨v, prints_of_load hload, entries, table_eq_ok.1 htable, fun d hd => ⟨items, ?_⟩⟩
    rw [hd, Option.getD_some] at hlist
    exact list_eq_ok.1 hlist

theorem diagnostics_of_load (h : load tool output = .ok none) : diagnostics tool output = .ok [] := by
  rw [diagnostics, h]
  rfl

/-- The diagnostics in a document are the tables in its list of them. -/
theorem diagnostics_of_prints {entries : List (String × Value)} {items : List Value}
    (h : Prints output (.table entries)) (hitems : Value.lookup "diagnostics" entries = some (.list items)) :
    diagnostics tool output = .ok (tables (.list items)) := by
  have hload : load tool output = .ok (some (.table entries)) := load_of_prints h Value.noConfusion
  refine Faulty.bind_eq_ok.2 ⟨_, hload, Faulty.bind_eq_ok.2 ⟨_, table_eq_ok.2 rfl, ?_⟩⟩
  rw [hitems]
  rfl

/-- **A table is read off what is written of it.** -/
theorem prints_write {entries : List (String × Value)}
    (h : Json.Writable Json.Strict.maxDepth (.table entries)) :
    Prints (Json.write .compact (.table entries)) (.table entries) := by
  have hdocument := Json.document_of_strict
    (Json.Strict.document_writeAt Json.Spacing.blank_compact h)
  have htrim : Text.trim (Json.writeAt .compact 0 (.table entries)) =
      Json.writeAt .compact 0 (.table entries) := by
    cases entries with
    | nil => decide
    | cons e rest => exact Text.trim_of_ends (c := '\x7b') (d := '\x7d') _ (by decide) (by decide)
  rw [Prints, Json.write, String.toList_ofList, htrim, hdocument]

/-- An entry of which the issues are read names its file. -/
theorem Eslint.namesFile_of_fileIssues {entry : Value} (h : fileIssues root entry = .ok issues) :
    NamesFile entry := by
  obtain ⟨entries, htable, h⟩ := Faulty.bind_eq_ok.1 h
  obtain rfl := table_eq_ok.1 htable
  refine ⟨rfl, fun hnone => ?_⟩
  rw [hnone] at h
  cases h

/-- The issues of files are read from no document or from a list of the right shape. -/
theorem Eslint.load_of_parse (h : parse root output = .ok issues) :
    (load "eslint" output = .ok none ∧ issues = []) ∨
      ∃ v, Prints output v ∧ Linter.eslint.Expects v := by
  obtain ⟨document?, hload, h⟩ := Faulty.bind_eq_ok.1 h
  cases document? with
  | none => exact .inl ⟨hload, (Faulty.pure_eq_ok.1 h).symm⟩
  | some v =>
    obtain ⟨entries, hlist, h⟩ := Faulty.bind_eq_ok.1 h
    obtain ⟨files, hfiles, -⟩ := Faulty.bind_eq_ok.1 h
    refine .inr ⟨v, prints_of_load hload, entries, list_eq_ok.1 hlist, fun e he => ?_⟩
    obtain ⟨_, -, hentry⟩ := Faulty.exists_of_mem_of_mapM hfiles he
    exact namesFile_of_fileIssues hentry

theorem located_nil {issue? : Value → Except Fault (Option Issue)} : located issue? [] = .ok [] := rfl

end Output

namespace Linter

open Output

variable {l : Linter} {root : Path} {output : String} {issues : List Issue}

/-- **What is read without a fault** is no document, which holds no issue, or a document of the
shape that the linter prints. -/
theorem prints_of_parse (hl : l ≠ .tsc) (h : l.parse root output = .ok issues) :
    (load l.name output = .ok none ∧ issues = []) ∨ ∃ v, Prints output v ∧ l.Expects v := by
  have hlocated {issue? : Value → Except Fault (Option Issue)}
      (h : diagnostics l.name output >>= located issue? = .ok issues) :
      (load l.name output = .ok none ∧ issues = []) ∨ ∃ v, Prints output v ∧ HasDiagnostics v := by
    obtain ⟨ds, hds, h⟩ := Faulty.bind_eq_ok.1 h
    refine (load_of_diagnostics hds).imp_left fun ⟨hload, hnil⟩ => ⟨hload, ?_⟩
    rw [hnil, located_nil] at h
    exact (Except.ok.inj h).symm
  cases l with
  | eslint => exact Eslint.load_of_parse h
  | oxlint => exact hlocated h
  | biome => exact hlocated h
  | tsc => exact absurd rfl hl

/-- No document holds no issue. -/
theorem parse_of_load (hl : l ≠ .tsc) (h : load l.name output = .ok none) :
    l.parse root output = .ok [] := by
  cases l with
  | eslint =>
    show Eslint.parse root output = .ok []
    rw [Eslint.parse]
    show load (name .eslint) output >>= _ = _
    rw [h]
    rfl
  | oxlint =>
    show diagnostics (name .oxlint) output >>= _ = _
    rw [diagnostics_of_load h]
    rfl
  | biome =>
    show diagnostics (name .biome) output >>= _ = _
    rw [diagnostics_of_load h]
    rfl
  | tsc => exact absurd rfl hl

/-- **Output of the wrong shape is refused, unless it is a null.** Blank output holds no issue. Of
all other output that is no document of the shape which the linter prints, a null is read without
a fault, and as if it held no issue; nothing else is. -/
theorem parse_unexpected_iff (l : Linter) (hl : l ≠ .tsc) (root : Path) (output : String) :
    (isBlankText output = true → l.parse root output = .ok []) ∧
    (isBlankText output = false → (∀ v, Prints output v → ¬ l.Expects v) →
      ((∃ issues, l.parse root output = .ok issues) ↔ Prints output .null) ∧
        ∀ issues, l.parse root output = .ok issues → issues = []) := by
  refine ⟨fun hblank => parse_of_load hl (load_eq_ok_none_iff.2 (.inl hblank)), fun hblank hshape => ?_⟩
  have hload : ∀ issues, l.parse root output = .ok issues →
      load l.name output = .ok none ∧ issues = [] := by
    intro issues h
    rcases prints_of_parse hl h with hnone | ⟨v, hv, hexpects⟩
    · exact hnone
    · exact absurd hexpects (hshape v hv)
  refine ⟨⟨?_, ?_⟩, fun issues h => (hload issues h).2⟩
  · rintro ⟨issues, h⟩
    rcases load_eq_ok_none_iff.1 (hload issues h).1 with hb | hnull
    · rw [hblank] at hb
      cases hb
    · exact hnull
  · intro hnull
    exact ⟨[], parse_of_load hl (load_eq_ok_none_iff.2 (.inr hnull))⟩

/-- The hypotheses of `parse_unexpected_iff` hold together: a list is not what oxlint prints, and
it is refused. -/
theorem parse_unexpected_iff_list : Linter.oxlint ≠ .tsc ∧ isBlankText "[]" = false ∧
    (∀ v, Prints "[]" v → ¬ Linter.oxlint.Expects v) ∧
    ¬ ∃ issues, Linter.oxlint.parse ⟨1, ["project"]⟩ "[]" = .ok issues := by
  have hprints : Prints "[]" (.list []) := by cbv
  have hshape : ∀ v, Prints "[]" v → ¬ Linter.oxlint.Expects v := by
    rintro v hv ⟨entries, rfl, -⟩
    cases hprints.symm.trans hv
  refine ⟨by decide, by decide, hshape, fun h => ?_⟩
  have hnull := ((parse_unexpected_iff .oxlint (by decide) ⟨1, ["project"]⟩ "[]").2 (by decide)
    hshape).1.1 h
  cases hprints.symm.trans hnull

/-- **A null passes.** It is neither blank nor a list of files, and it is read as if it held no
issue. -/
theorem not_parse_unexpected : ¬ ∀ (l : Linter), l ≠ .tsc → ∀ (root : Path) (output : String),
    isBlankText output = false → (∀ v, Prints output v → ¬ l.Expects v) →
    ∀ issues, l.parse root output ≠ .ok issues := by
  intro h
  have hnull : Prints "null" .null := by cbv
  refine h .eslint (by decide) ⟨1, ["project"]⟩ "null" (by decide) ?_ []
    (parse_of_load (by decide) (load_eq_ok_none_iff.2 (.inr hnull)))
  rintro v hv ⟨entries, rfl, -⟩
  cases hnull.symm.trans hv

end Linter
end LintMerge
