/-
# Integers with too many digits in the output of a linter

The readers give up for an integer with too many digits at two places only: where a document
is read, and at the line and the column in the header of a record of the type checker. The
issues that are built from a document never do so, whatever the document holds: a number that
it writes as a text is absent when it is too long. So whenever a linter's output is given up
for so many digits, they stand in it in a row (`Linter.hasLongRow_of_parse`).
-/

import LintMerge.Proofs.Json.LongNumbers
import LintMerge.Proofs.Output.Found
import LintMerge.Proofs.Text.Splitting

namespace LintMerge

namespace Output

variable {α : Type} {n : Nat} {root : Path} {tool what output : String} {v : Value}

theorem ofChecked_ne_tooManyDigits (x : Checked α) : ofChecked x ≠ .error (.tooManyDigits n) := by
  cases x <;> exact nofun

theorem table_ne_tooManyDigits : table tool what v ≠ .error (.tooManyDigits n) := by
  cases v <;> exact nofun

theorem list_ne_tooManyDigits : list tool what v ≠ .error (.tooManyDigits n) := by
  cases v <;> exact nofun

/-- A document is given up for the digits of an integer in it. -/
theorem hasLongRow_of_load (h : load tool output = .error (.tooManyDigits n)) :
    Text.HasLongRow n output.toList := by
  rw [load] at h
  split at h
  · cases h
  · split at h
    · cases h
    · cases h
    · next hdoc =>
      cases h
      exact (Json.hasLongRow_of_document hdoc).mono (Text.trim_infix _)
    · cases h

namespace Eslint

theorem fix?_ne_tooManyDigits : fix? v ≠ .error (.tooManyDigits n) := by
  rw [fix?]
  split
  · exact nofun
  · split
    · exact nofun
    · intro h
      rcases Faulty.bind_eq_error.1 h with h | ⟨_, -, h⟩
      · exact ofChecked_ne_tooManyDigits _ h
      · cases h

theorem issue_ne_tooManyDigits {path : String} {tornPath : Option Torn} :
    issue path tornPath v ≠ .error (.tooManyDigits n) := by
  intro h
  rcases Faulty.bind_eq_error.1 h with h | ⟨_, -, h⟩
  · exact fix?_ne_tooManyDigits h
  · exact ofChecked_ne_tooManyDigits _ h

theorem fileIssues_ne_tooManyDigits : fileIssues root v ≠ .error (.tooManyDigits n) := by
  intro h
  rcases Faulty.bind_eq_error.1 h with h | ⟨_, -, h⟩
  · exact table_ne_tooManyDigits h
  · split at h
    · cases h
    · obtain ⟨_, -, h⟩ := Faulty.exists_of_mapM_eq_error h
      exact issue_ne_tooManyDigits h

theorem hasLongRow_of_parse (h : parse root output = .error (.tooManyDigits n)) :
    Text.HasLongRow n output.toList := by
  rcases Faulty.bind_eq_error.1 h with h | ⟨document?, -, h⟩
  · exact hasLongRow_of_load h
  · cases document? with
    | none => cases h
    | some v =>
      rcases Faulty.bind_eq_error.1 h with h | ⟨_, -, h⟩
      · exact absurd h list_ne_tooManyDigits
      · rcases Faulty.bind_eq_error.1 h with h | ⟨_, -, h⟩
        · obtain ⟨_, -, h⟩ := Faulty.exists_of_mapM_eq_error h
          exact absurd h fileIssues_ne_tooManyDigits
        · cases h

end Eslint

/-- Diagnostics are given up for the digits of an integer in their document. -/
theorem hasLongRow_of_diagnostics (h : diagnostics tool output = .error (.tooManyDigits n)) :
    Text.HasLongRow n output.toList := by
  rcases Faulty.bind_eq_error.1 h with h | ⟨document?, -, h⟩
  · exact hasLongRow_of_load h
  · cases document? with
    | none => cases h
    | some v =>
      rcases Faulty.bind_eq_error.1 h with h | ⟨_, -, h⟩
      · exact absurd h table_ne_tooManyDigits
      · rcases Faulty.bind_eq_error.1 h with h | ⟨_, -, h⟩
        · exact absurd h list_ne_tooManyDigits
        · cases h

/-- Diagnostics of which the issues are never given up for digits are given up in their document. -/
theorem hasLongRow_of_located {issue? : Value → Except Fault (Option Issue)}
    (hissue : ∀ d, issue? d ≠ .error (.tooManyDigits n))
    (h : diagnostics tool output >>= located issue? = .error (.tooManyDigits n)) :
    Text.HasLongRow n output.toList := by
  rcases Faulty.bind_eq_error.1 h with h | ⟨ds, -, h⟩
  · exact hasLongRow_of_diagnostics h
  · rcases Faulty.bind_eq_error.1 h with h | ⟨_, -, h⟩
    · obtain ⟨d, -, h⟩ := Faulty.exists_of_mapM_eq_error h
      exact absurd h (hissue d)
    · cases h

theorem Oxlint.issue?_ne_tooManyDigits : Oxlint.issue? root v ≠ .error (.tooManyDigits n) := by
  rw [issue?]
  split
  · intro h
    rcases Faulty.bind_eq_error.1 h with h | ⟨_, -, h⟩
    · exact ofChecked_ne_tooManyDigits _ h
    · cases h
  · intro h
    cases h

theorem Biome.issue?_ne_tooManyDigits : Biome.issue? root v ≠ .error (.tooManyDigits n) := by
  rw [issue?]
  split
  · intro h
    rcases Faulty.bind_eq_error.1 h with h | ⟨_, -, h⟩
    · exact ofChecked_ne_tooManyDigits _ h
    · cases h
  · intro h
    cases h

namespace Tsc

/-- Digits that stand in a row in a text. -/
def IsRow (ds s : List Char) : Prop := ds <:+: s ∧ ∀ c ∈ ds, Text.isDigit c = true

theorem IsRow.mono {ds s t : List Char} (h : IsRow ds s) (hst : s <:+: t) : IsRow ds t :=
  ⟨h.1.trans hst, h.2⟩

theorem after?_eq_some {start s t : List Char} (h : after? start s = some t) : s = start ++ t := by
  induction start generalizing s with
  | nil => exact Option.some.inj h
  | cons a start ih =>
    cases s with
    | nil => cases h
    | cons c s =>
      rw [after?] at h
      split at h
      · next hc => rw [ih h, hc, List.cons_append]
      · cases h

/-- The digits at the start of a text stand in a row in it. -/
theorem isRow_of_digits? {s ds t : List Char} (h : digits? s = some (ds, t)) :
    IsRow ds s ∧ t <:+ s := by
  rw [digits?] at h
  split at h
  · cases h
  · cases h
    exact ⟨⟨(List.takeWhile_prefix _).isInfix, fun c hc => List.mem_takeWhile_imp hc⟩,
      List.drop_suffix _ _⟩

/-- The line and the column of a header stand in a row in the text of the header. -/
def Header.IsIn (s : List Char) (h : Header) : Prop := IsRow h.line s ∧ IsRow h.column s

theorem Header.IsIn.mono {s t : List Char} {h : Header} (hs : h.IsIn s) (hst : s <:+: t) : h.IsIn t :=
  ⟨hs.1.mono hst, hs.2.mono hst⟩

theorem isIn_of_afterPath? {path s : List Char} {h : Header} (hs : afterPath? path s = some h) :
    h.IsIn s := by
  simp only [afterPath?, Option.bind_eq_bind, Option.bind_eq_some_iff, Option.pure_def,
    Option.some.injEq] at hs
  obtain ⟨s₁, hparen, ⟨line, s₂⟩, hline, s₃, hcomma, ⟨column, s₄⟩, hcolumn, s₅, -, _, -, s₆, -, _, -,
    s₇, -, rfl⟩ := hs
  obtain ⟨hrow, hs₂⟩ := isRow_of_digits? hline
  obtain ⟨hrow', -⟩ := isRow_of_digits? hcolumn
  have hs₁ : s₁ <:+ s := after?_eq_some hparen ▸ List.suffix_append _ _
  have hs₃ : s₃ <:+ s₂ := by
    rw [show s₂ = _ from after?_eq_some hcomma]
    exact List.suffix_append _ _
  exact ⟨hrow.mono hs₁.isInfix, hrow'.mono ((hs₃.trans hs₂).trans hs₁).isInfix⟩

theorem isIn_of_headerFrom? {path s : List Char} {h : Header} (hs : headerFrom? path s = some h) :
    h.IsIn s := by
  induction s generalizing path with
  | nil => cases hs
  | cons c rest ih =>
    rw [headerFrom?] at hs
    split at hs
    · next hpath =>
      cases hs
      exact isIn_of_afterPath? hpath
    · exact (ih hs).mono (List.suffix_cons _ _).isInfix

theorem isIn_of_header? {line : List Char} {h : Header} (hs : header? line = some h) : h.IsIn line := by
  cases line with
  | nil => cases hs
  | cons c rest =>
    rw [header?] at hs
    split at hs
    · cases hs
    · exact (isIn_of_headerFrom? hs).mono (List.suffix_cons _ _).isInfix

theorem hasLongRow_of_number {ds s : List Char} (hds : IsRow ds s)
    (h : number ds = .error (.tooManyDigits n)) : Text.HasLongRow n s := by
  rw [number] at h
  split at h
  · next hlong =>
    cases h
    exact ⟨hlong, ds, hds.1, rfl, hds.2⟩
  · cases h

/-- The output of the type checker is given up for the digits of a line or of a column. -/
theorem hasLongRow_of_parse (h : parse root output = .error (.tooManyDigits n)) :
    Text.HasLongRow n output.toList := by
  obtain ⟨r, hr, h⟩ := Faulty.exists_of_mapM_eq_error h
  have hheader : r.header.IsIn output.toList :=
    forall_mem_records (fun line hline _ hh =>
      (isIn_of_header? hh).mono (Text.infix_of_mem_lines hline)) hr
  rcases Faulty.bind_eq_error.1 h with h | ⟨_, -, h⟩
  · exact hasLongRow_of_number hheader.1 h
  · rcases Faulty.bind_eq_error.1 h with h | ⟨_, -, h⟩
    · exact hasLongRow_of_number hheader.2 h
    · exact absurd h (ofChecked_ne_tooManyDigits _)

end Tsc
end Output

/-- **Output that is given up for an integer with too many digits** holds so many in a row. -/
theorem Linter.hasLongRow_of_parse {l : Linter} {root : Path} {output : String} {n : Nat}
    (h : l.parse root output = .error (.tooManyDigits n)) : Text.HasLongRow n output.toList := by
  cases l with
  | eslint => exact Output.Eslint.hasLongRow_of_parse h
  | oxlint => exact Output.hasLongRow_of_located (fun _ => Output.Oxlint.issue?_ne_tooManyDigits) h
  | biome => exact Output.hasLongRow_of_located (fun _ => Output.Biome.issue?_ne_tooManyDigits) h
  | tsc => exact Output.Tsc.hasLongRow_of_parse h

end LintMerge
