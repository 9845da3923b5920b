/-
# Reports round trip

A report is read from its text as it was (`Report.read_write`), on one line or indented,
when its stamp lies in the calendar, its integers are not too long to be read and none of its texts
is torn. Both
texts hold one document, in which nothing is null: what an issue or a run lacks is left out
(`Report.Spelled`), while what is there but empty stays.
-/

import LintMerge.Proofs.Json.Agreement
import LintMerge.Proofs.Report.Records
import LintMerge.Report.Wire

namespace LintMerge

open Value (compactedEntries lookup lookup_compactedEntries Wire Occurs)

namespace Value

mutual

/-- The integers in a value, at whatever depth. -/
def ints : Value → List Int
  | int n => [n]
  | list vs => intsOfItems vs
  | table es => intsOfEntries es
  | _ => []

/-- The integers in the values of a list. -/
def intsOfItems : List Value → List Int
  | [] => []
  | v :: rest => ints v ++ intsOfItems rest

/-- The integers in the entries of a table. -/
def intsOfEntries : List (String × Value) → List Int
  | [] => []
  | (_, v) :: rest => ints v ++ intsOfEntries rest

end

/-- All integers in a value have few enough digits to be read. -/
def Short (v : Value) : Prop := ∀ n ∈ v.ints, (toString n).length ≤ Text.maxDigits

instance : DecidablePred Short := fun v =>
  inferInstanceAs (Decidable (∀ n ∈ v.ints, (toString n).length ≤ Text.maxDigits))

namespace Short

variable {room : Nat}

theorem item {vs : List Value} (h : Short (.list vs)) : ∀ v ∈ vs, Short v := by
  induction vs with
  | nil => exact fun _ hv => absurd hv List.not_mem_nil
  | cons w rest ih =>
    have hboth : ∀ n ∈ w.ints ++ intsOfItems rest, (toString n).length ≤ Text.maxDigits := h
    rw [List.forall_mem_append] at hboth
    exact List.forall_mem_cons.2 ⟨hboth.1, ih hboth.2⟩

theorem entry {es : List (String × Value)} (h : Short (.table es)) : ∀ e ∈ es, Short e.2 := by
  induction es with
  | nil => exact fun _ he => absurd he List.not_mem_nil
  | cons e rest ih =>
    have hboth : ∀ n ∈ e.2.ints ++ intsOfEntries rest, (toString n).length ≤ Text.maxDigits := h
    rw [List.forall_mem_append] at hboth
    exact List.forall_mem_cons.2 ⟨hboth.1, ih hboth.2⟩

theorem wire_ofNat {n : Nat} (h : Short (.ofNat n)) : Wire room (.ofNat n) :=
  .int (h n (List.mem_singleton_self _))

end Short

theorem wire_ofText? {room : Nat} (x : Option String) : Wire room (.ofText? x) := by
  cases x with
  | none => exact .null
  | some s => exact .text

/-- A list of records is as its records are, none of which is null. -/
theorem wire_list {α : Type} {room : Nat} {f : α → Value} {as : List α} (h : Short (.list (as.map f)))
    (hwire : ∀ a ∈ as, Short (f a) → Wire room (f a)) (hne : ∀ a, f a ≠ .null) :
    Wire (room + 1) (.list (as.map f)) := by
  refine .list (fun v hv => ?_) fun v hv => ?_
  · obtain ⟨a, ha, rfl⟩ := List.mem_map.1 hv
    exact hwire a ha (h.item _ hv)
  · obtain ⟨a, -, rfl⟩ := List.mem_map.1 hv
    exact hne a

/-- What may be absent is as it is when it is there. -/
theorem wire_option {α : Type} {room : Nat} {f : α → Value} {x : Option α}
    (h : Short ((x.map f).getD .null)) (hwire : ∀ a, Short (f a) → Wire room (f a)) :
    Wire room ((x.map f).getD .null) := by
  cases x with
  | none => exact .null
  | some a => exact hwire a h

end Value

theorem Replacement.wire_toValue {room : Nat} (r : Replacement) (h : r.toValue.Short) :
    Wire (room + 1) r.toValue := by
  have hfields := h.entry
  simp only [entries, List.forall_mem_cons] at hfields
  obtain ⟨hstart, hstop, -⟩ := hfields
  refine .table r.nodup_keys ?_
  simp only [entries, List.forall_mem_cons]
  exact ⟨hstart.wire_ofNat, hstop.wire_ofNat, .text, List.forall_mem_nil _⟩

theorem Fix.wire_toValue {room : Nat} (f : Fix) (h : f.toValue.Short) : Wire (room + 3) f.toValue := by
  have hfields := h.entry
  simp only [entries, List.forall_mem_cons] at hfields
  refine .table f.nodup_keys ?_
  simp only [entries, List.forall_mem_cons]
  exact ⟨Value.wire_list hfields.1 (fun r _ hr => r.wire_toValue hr) fun _ => Value.table_ne_null, List.forall_mem_nil _⟩

theorem RuleMeta.wire_toValue {room : Nat} (m : RuleMeta) : Wire (room + 1) m.toValue := by
  refine .table m.nodup_keys ?_
  simp only [entries, List.forall_mem_cons]
  refine ⟨Value.wire_ofText? _, Value.wire_ofText? _, ?_, List.forall_mem_nil _⟩
  cases m.fixable with
  | none => exact .null
  | some b => exact .bool

theorem Issue.wire_toValue {room : Nat} (i : Issue) (h : i.toValue.Short) :
    Wire (room + 4) i.toValue := by
  have hfields := h.entry
  simp only [entries, List.forall_mem_cons] at hfields
  obtain ⟨-, hline, hcolumn, hendLine, hendColumn, -, -, -, -, hfix, habout, -⟩ := hfields
  refine .table i.nodup_keys ?_
  simp only [entries, List.forall_mem_cons]
  exact ⟨.text, hline.wire_ofNat, hcolumn.wire_ofNat, hendLine.wire_ofNat, hendColumn.wire_ofNat,
    .text, .text, .text, .text, Value.wire_option hfix fun f hf => f.wire_toValue hf,
    Value.wire_option habout fun m _ => m.wire_toValue, List.forall_mem_nil _⟩

theorem LinterRun.wire_toValue {room : Nat} (r : LinterRun) (h : r.toValue.Short) :
    Wire (room + 1) r.toValue := by
  have hfields := h.entry
  simp only [entries, List.forall_mem_cons] at hfields
  obtain ⟨-, -, -, -, -, hduration, hfiles, -⟩ := hfields
  refine .table r.nodup_keys ?_
  simp only [entries, List.forall_mem_cons]
  exact ⟨.text, .text, .bool, Value.wire_ofText? _, Value.wire_ofText? _, hduration.wire_ofNat,
    hfiles.wire_ofNat, List.forall_mem_nil _⟩

theorem Summary.wire_toValue {room : Nat} (s : Summary) (h : s.toValue.Short) :
    Wire (room + 1) s.toValue := by
  have hfields := h.entry
  simp only [entries, List.forall_mem_cons] at hfields
  obtain ⟨htotal, herrors, hwarnings, hinfo, hfixable, -⟩ := hfields
  refine .table s.nodup_keys ?_
  simp only [entries, List.forall_mem_cons]
  exact ⟨htotal.wire_ofNat, herrors.wire_ofNat, hwarnings.wire_ofNat, hinfo.wire_ofNat,
    hfixable.wire_ofNat, List.forall_mem_nil _⟩

theorem Report.wire_toValue {room : Nat} (r : Report) (h : r.toValue.Short) :
    Wire (room + 6) r.toValue := by
  have hfields := h.entry
  simp only [entries, List.forall_mem_cons] at hfields
  obtain ⟨-, -, hduration, hlinters, hissues, hsummary, -⟩ := hfields
  refine .table r.nodup_keys ?_
  simp only [entries, List.forall_mem_cons]
  exact ⟨.text, .text, hduration.wire_ofNat,
    Value.wire_list hlinters (fun l _ hl => l.wire_toValue hl) fun _ => Value.table_ne_null,
    Value.wire_list hissues (fun i _ hi => i.wire_toValue hi) fun _ => Value.table_ne_null,
    r.summary.wire_toValue hsummary, List.forall_mem_nil _⟩

/-- A value tells what is known of a rule, and nothing of what is not known. -/
structure RuleMeta.Spelled (m : RuleMeta) (v : Value) : Prop where
  docsUrl : v.get? "docsUrl" = m.docsUrl.map .text
  category : v.get? "category" = m.category.map .text
  fixable : v.get? "fixable" = m.fixable.map .bool
  /-- when nothing is known, the table is empty, but there -/
  empty : m = ⟨none, none, none⟩ → v = .table []

/-- A value tells the fix of an issue and what is known of its rule, if there are any. -/
structure Issue.Spelled (i : Issue) (v : Value) : Prop where
  /-- the replacements are there even if there are none -/
  fix : v.get? "fix" = i.fix.map fun f =>
    .table [("replacements", .list (f.replacements.map Replacement.toValue))]
  about : ∃ x, v.get? "meta" = x ∧ Option.Rel RuleMeta.Spelled i.about x

/-- A value tells why a run failed and what to be warned of, if anything. -/
structure LinterRun.Spelled (r : LinterRun) (v : Value) : Prop where
  error : v.get? "error" = r.error.map .text
  warning : v.get? "warning" = r.warning.map .text

/-- A value tells of a report what is there, and nothing of what is absent. -/
structure Report.Spelled (r : Report) (v : Value) : Prop where
  nothing_null : ¬ Occurs .null v
  linters : ∃ ws, v.get? "linters" = some (.list ws) ∧ List.Forall₂ LinterRun.Spelled r.linters ws
  issues : ∃ ws, v.get? "issues" = some (.list ws) ∧ List.Forall₂ Issue.Spelled r.issues ws

namespace Value

variable {es : List (String × Value)} {key : String}

/-- What is found in a compacted table. -/
theorem get?_compacted {v : Value} (hkeys : (es.map (·.1)).Nodup) (hv : lookup key es = some v) :
    (table es).compacted.get? key = present? v := by
  rw [compacted, get?, lookup_compactedEntries hkeys, hv, Option.bind_some]

/-- What is found of a text that may be absent. -/
theorem get?_ofText {x : Option String} (hkeys : (es.map (·.1)).Nodup)
    (hx : lookup key es = some (.ofText? x)) : (table es).compacted.get? key = x.map .text := by
  rw [get?_compacted hkeys hx]
  cases x <;> rfl

/-- What is found of a list. -/
theorem get?_list {α : Type} {f : α → Value} {as : List α} (hkeys : (es.map (·.1)).Nodup)
    (hv : lookup key es = some (.list (as.map f))) :
    (table es).compacted.get? key = some (.list (as.map (compacted ∘ f))) := by
  have hne : list (as.map f) ≠ null := list_ne_null
  rw [get?_compacted hkeys hv, present?_of_ne hne, compacted, compactedItems_eq_map, List.map_map]

end Value

theorem RuleMeta.spelled (m : RuleMeta) : m.Spelled m.toValue.compacted where
  docsUrl := Value.get?_ofText m.nodup_keys rfl
  category := Value.get?_ofText m.nodup_keys rfl
  fixable := by
    rw [toValue, Value.get?_compacted m.nodup_keys rfl]
    cases m.fixable <;> rfl
  empty := by
    rintro rfl
    rfl

theorem LinterRun.spelled (r : LinterRun) : r.Spelled r.toValue.compacted where
  error := Value.get?_ofText r.nodup_keys rfl
  warning := Value.get?_ofText r.nodup_keys rfl

/-- A fix lacks nothing, and none of its replacements does. -/
theorem Fix.toValue_compacted (f : Fix) : f.toValue.compacted = f.toValue := by
  have hsame : f.replacements.map (Value.compacted ∘ Replacement.toValue) =
      f.replacements.map Replacement.toValue := List.map_congr_left fun _ _ => rfl
  show Value.table [("replacements", (Value.list (f.replacements.map _)).compacted)] = _
  rw [Value.compacted, Value.compactedItems_eq_map, List.map_map, hsame]
  rfl

theorem Issue.spelled (i : Issue) : i.Spelled i.toValue.compacted where
  fix := by
    rw [toValue, Value.get?_compacted i.nodup_keys rfl]
    cases i.fix with
    | none => rfl
    | some f => exact congrArg some f.toValue_compacted
  about := by
    rw [toValue, Value.get?_compacted i.nodup_keys rfl]
    refine ⟨_, rfl, ?_⟩
    cases i.about with
    | none => exact .none
    | some m => exact .some m.spelled

namespace Report

theorem spelled (r : Report) (h : r.toValue.Short) : r.Spelled r.toValue.compacted where
  nothing_null := (@wire_toValue 0 r h).not_occurs_null Value.table_ne_null
  linters := by
    refine ⟨_, Value.get?_list r.nodup_keys rfl, ?_⟩
    rw [List.forall₂_map_right_iff, List.forall₂_same]
    exact fun l _ => l.spelled
  issues := by
    refine ⟨_, Value.get?_list r.nodup_keys rfl, ?_⟩
    rw [List.forall₂_map_right_iff, List.forall₂_same]
    exact fun i _ => i.spelled

/-- **Both texts of a report hold its value.** -/
theorem document_write (r : Report) (h : r.toValue.Short) (pretty : Bool) :
    Json.Strict.document (r.write pretty).toList = .ok r.toValue.compacted := by
  have hwire : Wire Json.Strict.maxDepth r.toValue := @wire_toValue 194 r h
  have hblank : (if pretty then Json.Spacing.indented else Json.Spacing.compact).Blank := by
    cases pretty with
    | true => exact Json.Spacing.blank_indented
    | false => exact Json.Spacing.blank_compact
  rw [write, Json.write, String.toList_ofList]
  exact Json.Strict.document_writeAt hblank hwire.writable_compacted

/-- **Reports round trip.** A report without torn texts is read from its text as it was, be the text on
one line or indented. Both texts hold one document, whichever reader it is taken from, and it tells of the
report what is there and nothing of what is absent: nothing in it is null. -/
theorem read_write (r : Report) (ht : r.timestamp.InCalendar) (h : r.toValue.Short) (hwhole : r.torn = []) :
    (∀ pretty, read (r.write pretty) = .ok r) ∧
    ∃ v, (∀ pretty, Json.Strict.document (r.write pretty).toList = .ok v ∧
      Json.read (r.write pretty) = .ok v) ∧ r.Spelled v := by
  refine ⟨fun pretty => ?_, r.toValue.compacted, fun pretty => ?_, r.spelled h⟩
  · rw [read, document_write r h]
    exact r.check_compacted .json ht (torn_eq_nil_iff.1 hwhole)
  · have hread := document_write r h pretty
    exact ⟨hread, Json.document_of_strict hread⟩

namespace Sample

/-- A report of one run and two issues, one of which has an empty fix and nothing known of its rule. -/
def report : Report where
  timestamp := ⟨2025, 1, 2, 3, 4, 5, 60, some 0⟩
  cwd := "/project"
  durationMs := 42
  linters := [{ linter := .eslint, success := true, filesProcessed := 2 }]
  issues := [
    { path := "a.ts", span := ⟨1, 1, 2, 1, by decide, by decide, by decide, by decide⟩,
      severity := .error, ruleId := "eslint/r", message := "a \"b\"\n\x01", source := .eslint,
      fix := some ⟨[]⟩, about := some ⟨none, none, none⟩, isPath := by unfold Issue.IsPath; decide,
      ruleId_ne := by decide },
    { path := "b.ts", span := ⟨3, 4, 3, 4, by decide, by decide, by decide, by decide⟩,
      severity := .info, ruleId := "eslint/s", message := "", source := .eslint,
      fix := some ⟨[⟨10, 14, "const", by decide⟩]⟩, about := none,
      isPath := by unfold Issue.IsPath; decide, ruleId_ne := by decide }]

theorem inCalendar : report.timestamp.InCalendar where
  year := by decide
  one_le_day := by decide
  day := by decide
  hour := by decide
  minute := by decide
  second := by decide
  micro := by decide
  offset := by
    rintro e ⟨⟩
    decide

end Sample

/-- The hypotheses of `read_write` hold together. -/
theorem read_write_sample : Sample.report.timestamp.InCalendar ∧ Sample.report.toValue.Short ∧
    Sample.report.torn = [] ∧ (∀ pretty, read (Sample.report.write pretty) = .ok Sample.report) := by
  have hshort : Sample.report.toValue.Short := by decide +kernel
  exact ⟨Sample.inCalendar, hshort, rfl, (read_write Sample.report Sample.inCalendar hshort rfl).1⟩

end Report
end LintMerge
