/-
# When output is refused

Output of the right shape may still be refused (`Output.Invalid`): where the numbers of an issue are
not those of a span, or a replacement does not run forward, a rule for issues is broken, and with
one issue all others of the output are lost. What is said of a reader has one form
(`Output.Judged`): it refuses in exactly one case, and otherwise it gives a value of which something
is known. A draft of an issue is judged by its numbers (`judged_ofDraft`), if the name of its rule
holds no halves of pairs, and the form is kept where readers are put together: one after the other
(`Judged.bind`), over the items of a list (`Judged.mapM`), and over those diagnostics of a document
that can be located (`judged_diagnostics`).
-/

import LintMerge.Proofs.Linter.Soundness
import LintMerge.Proofs.Output.Shape
import LintMerge.Proofs.Path.Keys

namespace LintMerge

namespace Issue

/-- What is found of a file below the root by a rule that has a name, at a span. -/
def Draft.at (d : Draft) (s : Span) (hpath : IsPath d.path) (hrule : d.ruleId ≠ "") : Issue where
  path := d.path
  span := s
  severity := d.severity
  ruleId := d.ruleId
  message := d.message
  source := d.source
  fix := d.fix
  about := d.about
  isPath := hpath
  ruleId_ne := hrule
  torn := d.torn

/-- A draft whose numbers are those of a span has an issue there. -/
theorem ofDraft_at {d : Draft} {s : Span} (hpath : IsPath d.path) (hrule : d.ruleId ≠ "")
    (hwhole : d.tornRule = none) (hline : (s.line : Int) = d.line) (hcolumn : (s.column : Int) = d.column)
    (hendLine : (s.endLine : Int) = d.endLine) (hendColumn : (s.endColumn : Int) = d.endColumn) :
    ofDraft d = .ok (d.at s hpath hrule) :=
  ofDraft_eq_ok.2 ⟨rfl, hline, hcolumn, hendLine, hendColumn, rfl, rfl, rfl, rfl, rfl, rfl, rfl, hwhole⟩

/-- The key of a file is the path of an issue. -/
theorem isPath_key (root : Path) (file : String) : IsPath (root.key file) :=
  ⟨Path.key_ne_empty root file, Path.not_isAbsoluteText_key root file⟩

end Issue

/-- Numbers that no span has: one of them is below 1, or the end is before the start. -/
def Span.Misplaced (line column endLine endColumn : Int) : Prop :=
  line < 1 ∨ column < 1 ∨ endLine < 1 ∨ endColumn < 1 ∨ endLine < line ∨
    endLine = line ∧ endColumn < column

instance {line column endLine endColumn : Int} :
    Decidable (Span.Misplaced line column endLine endColumn) :=
  inferInstanceAs (Decidable (_ ∨ _))

/-- **Numbers are those of a span** unless they are misplaced. -/
theorem Span.exists_iff {line column endLine endColumn : Int} :
    (∃ s : Span, (s.line : Int) = line ∧ (s.column : Int) = column ∧ (s.endLine : Int) = endLine ∧
      (s.endColumn : Int) = endColumn) ↔ ¬ Misplaced line column endLine endColumn := by
  constructor
  · rintro ⟨s, rfl, rfl, rfl, rfl⟩ h
    have hline := s.one_le_line
    have hcolumn := s.one_le_column
    have hendColumn := s.one_le_endColumn
    have hordered := s.ordered
    unfold Misplaced at h
    omega
  · intro h
    unfold Misplaced at h
    have hline : (line.toNat : Int) = line := Int.toNat_of_nonneg (by omega)
    have hcolumn : (column.toNat : Int) = column := Int.toNat_of_nonneg (by omega)
    have hendLine : (endLine.toNat : Int) = endLine := Int.toNat_of_nonneg (by omega)
    have hendColumn : (endColumn.toNat : Int) = endColumn := Int.toNat_of_nonneg (by omega)
    exact ⟨⟨line.toNat, column.toNat, endLine.toNat, endColumn.toNat, by omega, by omega, by omega,
      by omega⟩, hline, hcolumn, hendLine, hendColumn⟩

/-- What a replacement is made of when it is made: two numbers and a text. -/
theorem Replacement.make_eq_ok {start stop : Int} {text : String} {r : Replacement} :
    make start stop text = .ok r ↔ start = r.start ∧ stop = r.stop ∧ text = r.text := by
  rw [make, assemble, Checked.andThen_eq_ok]
  constructor
  · rintro ⟨parts, hparts, h⟩
    obtain ⟨_, t, hpair, ht, rfl⟩ := Checked.seq_eq_ok.1 hparts
    obtain ⟨_, b, hfirst, hb, rfl⟩ := Checked.seq_eq_ok.1 hpair
    obtain ⟨a, ha, rfl⟩ := Checked.map_eq_ok.1 hfirst
    dsimp only at h
    split at h
    · cases h
      cases ht
      exact ⟨Check.atLeast_int_eq_ok.1 (Checked.under_eq_ok.1 ha),
        Check.atLeast_int_eq_ok.1 (Checked.under_eq_ok.1 hb), rfl⟩
    · cases h
  · rintro ⟨rfl, rfl, rfl⟩
    have hstart : Check.atLeast 0 (.int r.start) = .ok ⟨r.start, Nat.zero_le _⟩ :=
      Check.atLeast_int_eq_ok.2 rfl
    have hstop : Check.atLeast 0 (.int r.stop) = .ok ⟨r.stop, Nat.zero_le _⟩ :=
      Check.atLeast_int_eq_ok.2 rfl
    rw [hstart, hstop]
    exact ⟨_, rfl, dif_pos r.start_le_stop⟩

namespace Output

theorem ruleOf_ne_empty (l : Linter) (rule : String) : ruleOf l rule ≠ "" := by
  have hslash : "/" ≠ "" := by decide
  rw [ruleOf]
  exact append_ne_empty (.inl (append_ne_empty (.inr hslash)))

variable {α β : Type} {bad bad' : Prop} {P : α → Prop} {Q : β → Prop} {x : Except Fault α}

/-- Reading ends because a rule for issues is broken. -/
def Invalid (x : Except Fault α) : Prop := ∃ first rest, x = .error (.invalid first rest)

theorem invalid_ofChecked_iff {x : Checked α} : Invalid (ofChecked x) ↔ ∀ a, x ≠ .ok a := by
  cases x with
  | ok a => simp [Invalid, ofChecked]
  | refused first rest => simp [Invalid, ofChecked]

/-- What a reader comes to: it refuses in one case, and otherwise gives a value of which something
is known. -/
def Judged (bad : Prop) (P : α → Prop) (x : Except Fault α) : Prop :=
  bad ∧ Invalid x ∨ ¬ bad ∧ ∃ a, x = .ok a ∧ P a

namespace Judged

theorem invalid_iff (h : Judged bad P x) : Invalid x ↔ bad := by
  rcases h with ⟨hbad, hx⟩ | ⟨hgood, a, rfl, -⟩
  · exact iff_of_true hx hbad
  · refine iff_of_false ?_ hgood
    rintro ⟨_, _, h⟩
    cases h

theorem exists_ok (h : Judged bad P x) (hgood : ¬ bad) : ∃ a, x = .ok a ∧ P a :=
  h.elim (fun hx => absurd hx.1 hgood) And.right

theorem mono {P' : α → Prop} (h : Judged bad P x) (hbad : bad ↔ bad') (hP : ∀ a, P a → P' a) :
    Judged bad' P' x := by
  rcases h with ⟨hb, hx⟩ | ⟨hgood, a, ha, hPa⟩
  · exact .inl ⟨hbad.1 hb, hx⟩
  · exact .inr ⟨fun hb => hgood (hbad.2 hb), a, ha, hP a hPa⟩

/-- One reader after another refuses where one of the two does. -/
theorem bind {f : α → Except Fault β} (hx : Judged bad P x) (hf : ∀ a, P a → Judged bad' Q (f a)) :
    Judged (bad ∨ bad') Q (x >>= f) := by
  rcases hx with ⟨hbad, first, rest, rfl⟩ | ⟨hgood, a, rfl, ha⟩
  · exact .inl ⟨.inl hbad, first, rest, rfl⟩
  · exact (hf a ha).mono (by simp [hgood]) fun _ hb => hb

/-- A reader that makes something else of what another one gives refuses where that one does. -/
theorem bind_pure {f : α → β} (hx : Judged bad P x) (hf : ∀ a, P a → Q (f a)) :
    Judged bad Q (x >>= fun a => pure (f a)) :=
  (hx.bind fun a ha => show Judged False Q (pure (f a)) from .inr ⟨not_false, _, rfl, hf a ha⟩).mono
    (or_iff_left not_false) fun _ hb => hb

/-- A reader of the items of a list refuses where it refuses one of them. -/
theorem mapM {f : α → Except Fault β} {bad : α → Prop} {R : α → β → Prop} {as : List α}
    (h : ∀ a ∈ as, Judged (bad a) (R a) (f a)) :
    Judged (∃ a ∈ as, bad a) (List.Forall₂ R as) (as.mapM f) := by
  induction as with
  | nil => exact .inr ⟨by simp, [], rfl, .nil⟩
  | cons a as ih =>
    rw [List.mapM_cons]
    have hrest := ih fun b hb => h b (List.mem_cons_of_mem _ hb)
    have hboth := (h a List.mem_cons_self).bind fun b (hb : R a b) => hrest.bind_pure fun bs hbs =>
      List.Forall₂.cons hb hbs
    exact hboth.mono (by simp) fun _ hbs => hbs

end Judged

/-- A check refuses what it gives no value for. -/
theorem judged_ofChecked {x : Checked α} (h : (∃ a, x = .ok a) ↔ ¬ bad) :
    Judged bad (fun a => x = .ok a) (ofChecked x) := by
  by_cases hbad : bad
  · exact .inl ⟨hbad, invalid_ofChecked_iff.2 fun a ha => h.1 ⟨a, ha⟩ hbad⟩
  · obtain ⟨a, ha⟩ := h.2 hbad
    exact .inr ⟨hbad, a, ofChecked_eq_ok.2 ha, ha⟩

/-- **A draft is refused where its numbers are misplaced**, and is an issue otherwise. -/
theorem judged_ofDraft {d : Issue.Draft} (hpath : Issue.IsPath d.path) (hrule : d.ruleId ≠ "")
    (hwhole : d.tornRule = none) :
    Judged (Span.Misplaced d.line d.column d.endLine d.endColumn) (fun i => Issue.ofDraft d = .ok i)
      (ofChecked (Issue.ofDraft d)) := by
  refine judged_ofChecked ?_
  rw [← Span.exists_iff]
  constructor
  · rintro ⟨i, hi⟩
    obtain ⟨-, hline, hcolumn, hendLine, hendColumn, -⟩ := Issue.ofDraft_eq_ok.1 hi
    exact ⟨i.span, hline, hcolumn, hendLine, hendColumn⟩
  · rintro ⟨s, hline, hcolumn, hendLine, hendColumn⟩
    exact ⟨_, Issue.ofDraft_at hpath hrule hwhole hline hcolumn hendLine hendColumn⟩

/-- Found item by item, what is located is found in its order. -/
theorem forall₂_filterMap {Located : Value → Prop} [DecidablePred Located] {R : Value → Issue → Prop}
    {ds : List Value} {found : List (Option Issue)}
    (h : List.Forall₂ (fun d o => if Located d then ∃ i, o = some i ∧ R d i else o = none) ds found) :
    List.Forall₂ R (ds.filter Located) (found.filterMap id) := by
  induction h with
  | nil => exact .nil
  | @cons d o ds found ho _ ih =>
    by_cases hd : Located d
    · rw [if_pos hd] at ho
      obtain ⟨i, rfl, hi⟩ := ho
      rw [List.filter_cons, if_pos (decide_eq_true hd)]
      exact .cons hi ih
    · rw [if_neg hd] at ho
      rw [ho, List.filter_cons, if_neg (by simpa using hd)]
      exact ih

theorem judged_replacement (start stop : Int) (text : String) :
    Judged (start < 0 ∨ stop < start) (fun r => Replacement.make start stop text = .ok r)
      (ofChecked (Replacement.make start stop text)) := by
  refine judged_ofChecked ⟨?_, fun h => ?_⟩
  · rintro ⟨r, hr⟩
    obtain ⟨rfl, rfl, -⟩ := Replacement.make_eq_ok.1 hr
    have hordered := r.start_le_stop
    omega
  · have hstart : start = start.toNat := (Int.toNat_of_nonneg (by omega)).symm
    have hstop : stop = stop.toNat := (Int.toNat_of_nonneg (by omega)).symm
    exact ⟨⟨start.toNat, stop.toNat, text, by omega⟩, Replacement.make_eq_ok.2 ⟨hstart, hstop, rfl⟩⟩

/-- Only a table has fields. -/
theorem isTable_of_field {v : Value} {key : String} (h : v.field key ≠ .null) : isTable v = true := by
  cases v with
  | table entries => rfl
  | _ => exact absurd rfl h

/-- The first table of a list: what comes before it is of other kinds. -/
def FirstTable (v t : Value) : Prop :=
  isTable t = true ∧ ∃ before after, v = .list (before ++ t :: after) ∧ ∀ w ∈ before, isTable w = false

theorem tables_list (items : List Value) : tables (.list items) = items.filter isTable := by
  refine List.filter_congr fun v _ => ?_
  cases v <;> rfl

theorem head?_tables_eq_some_iff {v t : Value} : (tables v).head? = some t ↔ FirstTable v t := by
  cases v with
  | list items => simp [tables_list, List.head?_filter, List.find?_eq_some_iff_append, FirstTable]
  | _ => simp [tables, FirstTable]

/-- A list of two whole numbers. -/
def IsPair (v : Value) (a b : Int) : Prop :=
  ∃ first second, v = .list [first, second] ∧ integer? first = some a ∧ integer? second = some b

theorem pair?_eq_some_iff {v : Value} {a b : Int} : pair? v = some (a, b) ↔ IsPair v a b := by
  rw [pair?.eq_def]
  split
  · next first second => simp [IsPair, Option.bind_eq_some_iff, and_assoc]
  · next hother =>
    refine iff_of_false (fun h => by cases h) ?_
    rintro ⟨first, second, rfl, -⟩
    exact hother first second rfl

theorem someText?_eq_some_iff {v : Value} {s : String} :
    someText? v = some s ↔ text? v = some s ∧ s ≠ "" := by
  simp [someText?, Option.filter_eq_some_iff]

theorem ruleText_of_ne {v : Value} {rule : String} (h : text? v = some rule) (hne : rule ≠ "") :
    ruleText v = rule := by
  rw [ruleText, someText?_eq_some_iff.2 ⟨h, hne⟩, Option.getD_some]

theorem ruleText_of_none {v : Value} (h : text? v = none ∨ text? v = some "") :
    ruleText v = unnamedRule := by
  rw [ruleText, someText?]
  rcases h with h | h <;> rw [h] <;> rfl

/-- The diagnostics of a document: the items of the list that it has of them, none where it has no
such list. -/
def Diagnoses (output : String) (items : List Value) : Prop :=
  ∃ entries, Prints output (.table entries) ∧
    (Value.lookup "diagnostics" entries = some (.list items) ∨
      Value.lookup "diagnostics" entries = none ∧ items = [])

theorem diagnoses_of_prints {output : String} {items : List Value}
    (h : Prints output (.table [("diagnostics", .list items)])) : Diagnoses output items :=
  ⟨_, h, .inl rfl⟩

theorem Diagnoses.diagnostics_eq {output : String} {items : List Value} (h : Diagnoses output items)
    (tool : String) : diagnostics tool output = .ok (items.filter isTable) := by
  obtain ⟨entries, hprints, hlookup⟩ := h
  have hload : load tool output = .ok (some (.table entries)) :=
    load_of_prints hprints Value.noConfusion
  have hitems : (Value.lookup "diagnostics" entries).getD (.list []) = .list items := by
    rcases hlookup with h | ⟨h, rfl⟩ <;> rw [h] <;> rfl
  refine Faulty.bind_eq_ok.2 ⟨_, hload, Faulty.bind_eq_ok.2 ⟨entries, rfl, ?_⟩⟩
  rw [hitems, ← tables_list]
  rfl

/-- **What is read of diagnostics of which some are located.** It is refused where one of these is,
and otherwise it is one issue for each of these, in their order, and none for the others. -/
theorem judged_diagnostics {issue? : Value → Except Fault (Option Issue)} {Located bad : Value → Prop}
    [DecidablePred Located] {R : Value → Issue → Prop} {tool output : String} {items : List Value}
    (hitems : Diagnoses output items) (htable : ∀ d, Located d → isTable d = true)
    (hbad : ∀ d, bad d → Located d) (hskipped : ∀ d, ¬ Located d → issue? d = .ok none)
    (hlocated : ∀ d ∈ items, Located d →
      Judged (bad d) (fun found => ∃ i, found = some i ∧ R d i) (issue? d)) :
    Judged (∃ d ∈ items, bad d) (List.Forall₂ R (items.filter Located))
      (diagnostics tool output >>= located issue?) := by
  have htables : (items.filter isTable).filter Located = items.filter Located := by
    rw [List.filter_filter]
    refine List.filter_congr fun d _ => ?_
    by_cases h : Located d <;> simp [h, htable]
  have hitem : ∀ d ∈ items.filter isTable, Judged (bad d)
      (fun found => if Located d then ∃ i, found = some i ∧ R d i else found = none) (issue? d) := by
    intro d hd
    by_cases h : Located d
    · exact (hlocated d (List.mem_of_mem_filter hd) h).mono Iff.rfl fun found hfound => by rwa [if_pos h]
    · exact .inr ⟨fun hd => h (hbad d hd), none, hskipped d h, (if_neg h).mpr rfl⟩
  have hall := (Judged.mapM hitem).bind_pure fun found hfound => forall₂_filterMap hfound
  rw [htables] at hall
  rw [hitems.diagnostics_eq tool]
  refine hall.mono ?_ fun _ h => h
  constructor
  · rintro ⟨d, hd, h⟩
    exact ⟨d, List.mem_of_mem_filter hd, h⟩
  · rintro ⟨d, hd, h⟩
    exact ⟨d, List.mem_filter.2 ⟨hd, htable d (hbad d h)⟩, h⟩

end Output
end LintMerge
