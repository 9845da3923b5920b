/-
# What is read off the output of a linter

The four readers build their issues from drafts, and a draft names the linter whose
output is read twice: as the source of the issue and at the start of its rule. So every
issue that is read off the output of a linter is one that this linter found
(`Linter.found_of_parse`), whatever the output was.
-/

import LintMerge.Output.Reader
import LintMerge.Proofs.Check.Outcome

namespace LintMerge

/-- An issue that a linter found: the linter is its source, and its rule is one of the
linter's, with a name that is not empty. -/
def Issue.FoundBy (l : Linter) (i : Issue) : Prop :=
  i.source = l ∧ ∃ rule, rule ≠ "" ∧ i.ruleId = Output.ruleOf l rule

namespace Output

theorem ofChecked_eq_ok {α : Type} {x : Checked α} {a : α} : ofChecked x = .ok a ↔ x = .ok a := by
  cases x <;> simp [ofChecked]

/-- A draft with a linter for its source and one of its rules gives an issue of the linter. -/
theorem foundBy_of_ofDraft {d : Issue.Draft} {i : Issue} {l : Linter} {rule : String}
    (h : ofChecked (Issue.ofDraft d) = .ok i) (hsource : d.source = l) (hne : rule ≠ "")
    (hrule : d.ruleId = ruleOf l rule) : i.FoundBy l := by
  obtain ⟨-, -, -, -, -, -, hruleId, -, hdsource, -, -⟩ := Issue.ofDraft_eq_ok.1 (ofChecked_eq_ok.1 h)
  exact ⟨hdsource.trans hsource, rule, hne, hruleId.trans hrule⟩

/-- A rule is named even where the output names none. -/
theorem ruleText_ne_empty (v : Value) : ruleText v ≠ "" := by
  rw [ruleText, someText?]
  intro h
  cases htext : (text? v).filter (· ≠ "") with
  | none =>
    rw [htext] at h
    exact absurd h (by decide)
  | some s =>
    rw [htext] at h
    have hs := (Option.filter_eq_some_iff.1 htext).2
    simp only [Option.getD_some] at h
    simp [h] at hs

namespace Eslint

theorem foundBy_of_issue {path : String} {tornPath : Option Torn} {message : Value} {i : Issue}
    (h : issue path tornPath message = .ok i) : i.FoundBy .eslint := by
  obtain ⟨fix, -, h⟩ := Faulty.bind_eq_ok.1 h
  exact foundBy_of_ofDraft h rfl (ruleText_ne_empty _) rfl

theorem foundBy_of_fileIssues {root : Path} {entry : Value} {issues : List Issue}
    (h : fileIssues root entry = .ok issues) {i : Issue} (hi : i ∈ issues) : i.FoundBy .eslint := by
  obtain ⟨_, -, h⟩ := Faulty.bind_eq_ok.1 h
  split at h
  · cases h
  · obtain ⟨message, -, hmessage⟩ := Faulty.exists_of_mem_mapM h hi
    exact foundBy_of_issue hmessage

theorem foundBy_of_parse {root : Path} {output : String} {issues : List Issue}
    (h : parse root output = .ok issues) {i : Issue} (hi : i ∈ issues) : i.FoundBy .eslint := by
  obtain ⟨document?, -, h⟩ := Faulty.bind_eq_ok.1 h
  cases document? with
  | none =>
    rw [← Faulty.pure_eq_ok.1 h] at hi
    exact absurd hi List.not_mem_nil
  | some document =>
    obtain ⟨entries, -, h⟩ := Faulty.bind_eq_ok.1 h
    obtain ⟨files, hfiles, h⟩ := Faulty.bind_eq_ok.1 h
    rw [← Faulty.pure_eq_ok.1 h] at hi
    obtain ⟨file, hmem, hi⟩ := List.mem_flatten.1 hi
    obtain ⟨entry, -, hentry⟩ := Faulty.exists_of_mem_mapM hfiles hmem
    exact foundBy_of_fileIssues hentry hi

end Eslint

/-- An issue of located diagnostics is the issue of one of them. -/
theorem exists_of_mem_located {issue? : Value → Except Fault (Option Issue)}
    {diagnostics : List Value} {issues : List Issue} (h : located issue? diagnostics = .ok issues)
    {i : Issue} (hi : i ∈ issues) : ∃ d ∈ diagnostics, issue? d = .ok (some i) := by
  obtain ⟨found, hfound, h⟩ := Faulty.bind_eq_ok.1 h
  rw [← Faulty.pure_eq_ok.1 h] at hi
  obtain ⟨_, hmem, rfl⟩ := List.mem_filterMap.1 hi
  exact Faulty.exists_of_mem_mapM hfound hmem

namespace Oxlint

theorem foundBy_of_issue? {root : Path} {diagnostic : Value} {i : Issue}
    (h : issue? root diagnostic = .ok (some i)) : i.FoundBy .oxlint := by
  rw [issue?] at h
  split at h
  · obtain ⟨i', hi', h⟩ := Faulty.bind_eq_ok.1 h
    cases Faulty.pure_eq_ok.1 h
    exact foundBy_of_ofDraft hi' rfl (ruleText_ne_empty _) rfl
  · cases h

theorem foundBy_of_parse {root : Path} {output : String} {issues : List Issue}
    (h : parse root output = .ok issues) {i : Issue} (hi : i ∈ issues) : i.FoundBy .oxlint := by
  obtain ⟨ds, -, h⟩ := Faulty.bind_eq_ok.1 h
  obtain ⟨d, -, hd⟩ := exists_of_mem_located h hi
  exact foundBy_of_issue? hd

end Oxlint

namespace Biome

/-- A diagnostic is of a rule even where it has no category. -/
theorem rule_ne_empty (diagnostic : Value) :
    (category diagnostic).getLast?.getD unnamedRule ≠ "" := by
  cases h : (category diagnostic).getLast? with
  | none => decide
  | some s =>
    have hs := List.mem_of_getLast? h
    rw [category, List.mem_filter] at hs
    simpa using hs.2

theorem foundBy_of_issue? {root : Path} {diagnostic : Value} {i : Issue}
    (h : issue? root diagnostic = .ok (some i)) : i.FoundBy .biome := by
  rw [issue?] at h
  split at h
  · obtain ⟨i', hi', h⟩ := Faulty.bind_eq_ok.1 h
    cases Faulty.pure_eq_ok.1 h
    exact foundBy_of_ofDraft hi' rfl (rule_ne_empty diagnostic) rfl
  · cases h

theorem foundBy_of_parse {root : Path} {output : String} {issues : List Issue}
    (h : parse root output = .ok issues) {i : Issue} (hi : i ∈ issues) : i.FoundBy .biome := by
  obtain ⟨ds, -, h⟩ := Faulty.bind_eq_ok.1 h
  obtain ⟨d, -, hd⟩ := exists_of_mem_located h hi
  exact foundBy_of_issue? hd

end Biome

namespace Tsc

/-- The code of a header starts with two letters. -/
theorem code_ne_nil_of_afterPath? {path s : List Char} {h : Header} (hs : afterPath? path s = some h) :
    h.code ≠ [] := by
  simp only [afterPath?, Option.bind_eq_bind, Option.bind_eq_some_iff, Option.pure_def,
    Option.some.injEq] at hs
  obtain ⟨_, _, _, _, _, _, _, _, _, _, _, _, _, _, _, _, _, _, rfl⟩ := hs
  exact List.cons_ne_nil _ _

theorem code_ne_nil_of_headerFrom? {path s : List Char} {h : Header}
    (hs : headerFrom? path s = some h) : h.code ≠ [] := by
  induction s generalizing path with
  | nil => cases hs
  | cons c rest ih =>
    rw [headerFrom?] at hs
    split at hs
    · next hpath =>
      cases hs
      exact code_ne_nil_of_afterPath? hpath
    · exact ih hs

theorem code_ne_nil_of_header? {line : List Char} {h : Header} (hs : header? line = some h) :
    h.code ≠ [] := by
  cases line with
  | nil => cases hs
  | cons c rest =>
    rw [header?] at hs
    split at hs
    · cases hs
    · exact code_ne_nil_of_headerFrom? hs

/-- What holds of the header of every line that has one holds of the header of every record: of the
open one, if there is one, and of each that a line starts. -/
theorem forall_mem_recordsFrom {P : Header → Prop} {current : Option Record}
    {lines : List (List Char)} (hcurrent : ∀ r ∈ current, P r.header)
    (hlines : ∀ line ∈ lines, ∀ h, header? line = some h → P h) {r : Record}
    (hr : r ∈ recordsFrom current lines) : P r.header := by
  induction lines generalizing current with
  | nil => exact hcurrent r (by simpa [recordsFrom] using hr)
  | cons line rest ih =>
    have hrest : ∀ line ∈ rest, ∀ h, header? line = some h → P h := fun line hline =>
      hlines line (List.mem_cons_of_mem _ hline)
    unfold recordsFrom at hr
    split at hr
    · next h hline =>
      rcases List.mem_append.1 hr with hr | hr
      · exact hcurrent r (by simpa using hr)
      · refine ih (fun r' hr' => ?_) hrest hr
        cases hr'
        exact hlines line List.mem_cons_self h hline
    · split at hr
      · next open' =>
        split at hr
        · refine ih (fun r' hr' => ?_) hrest hr
          cases hr'
          exact hcurrent open' rfl
        · rcases List.mem_cons.1 hr with rfl | hr
          · exact hcurrent r rfl
          · exact ih (fun _ hr' => absurd hr' (Option.not_mem_none _)) hrest hr
      · exact ih (fun _ hr' => absurd hr' (Option.not_mem_none _)) hrest hr

/-- What holds of the header of every line that has one holds of the header of every record. -/
theorem forall_mem_records {P : Header → Prop} {lines : List (List Char)}
    (hlines : ∀ line ∈ lines, ∀ h, header? line = some h → P h) {r : Record}
    (hr : r ∈ records lines) : P r.header :=
  forall_mem_recordsFrom (fun _ hr' => absurd hr' (Option.not_mem_none _)) hlines hr

theorem foundBy_of_issue {root : Path} {r : Record} {i : Issue} (hcode : r.header.code ≠ [])
    (h : Record.issue root r = .ok i) : i.FoundBy .tsc := by
  obtain ⟨line, -, h⟩ := Faulty.bind_eq_ok.1 h
  obtain ⟨column, -, h⟩ := Faulty.bind_eq_ok.1 h
  have hrule : String.ofList r.header.code ≠ "" := by rwa [Ne, String.ofList_eq_empty_iff]
  exact foundBy_of_ofDraft h rfl hrule rfl

theorem foundBy_of_parse {root : Path} {output : String} {issues : List Issue}
    (h : parse root output = .ok issues) {i : Issue} (hi : i ∈ issues) : i.FoundBy .tsc := by
  obtain ⟨r, hr, h⟩ := Faulty.exists_of_mem_mapM h hi
  exact foundBy_of_issue (forall_mem_records (fun _ _ _ => code_ne_nil_of_header?) hr) h

end Tsc
end Output

/-- **Every issue that is read off the output of a linter is one that the linter found.** -/
theorem Linter.found_of_parse {l : Linter} {root : Path} {output : String} {issues : List Issue}
    (h : l.parse root output = .ok issues) {i : Issue} (hi : i ∈ issues) : i.FoundBy l := by
  cases l with
  | eslint => exact Output.Eslint.foundBy_of_parse h hi
  | oxlint => exact Output.Oxlint.foundBy_of_parse h hi
  | biome => exact Output.Biome.foundBy_of_parse h hi
  | tsc => exact Output.Tsc.foundBy_of_parse h hi

end LintMerge
