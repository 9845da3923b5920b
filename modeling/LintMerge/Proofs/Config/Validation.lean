/-
# Which configurations are accepted

What a configuration may say is told here field by field (`Config.Field.Accepts`), apart from the
checks, and then shown to be what the checks accept. A configuration is accepted exactly when each
entry that counts is one of a field and says what may be said there; else it is refused with a
message that names the source, and the faults told in it are those of the entries that do not fit,
of each one at least (`Config.validated`).

Where no two keys are read as the same all entries count, and their order decides on nothing but
the order in which unknown keys are told. Where two are, only the last of them is looked at: what
the other says may be anything, and which one is refused depends on their order
(`Config.not_validated`).
-/

import LintMerge.Proofs.Config.Loading
import LintMerge.Proofs.Config.Names
import LintMerge.Proofs.Config.Selection

namespace LintMerge

namespace Check

variable {α : Type} {v : Value} {entries : List (String × Value)}

theorem optional_eq_nil_iff {check : Value → Checked α} :
    (optional check v).faults = [] ↔ v = .null ∨ (check v).faults = [] := by
  cases v with
  | null => simp [optional, Checked.faults]
  | _ => simp [optional]

theorem sequence_text_eq_nil_iff {form : Form} :
    (sequence form text v).faults = [] ↔ ∃ vs texts, v = .list vs ∧
      List.Forall₂ (fun w s => Value.string? w = some s) vs texts := by
  rw [Checked.faults_eq_nil_iff]
  cases v with
  | list vs =>
    rw [sequence, Checked.items]
    simp only [Checked.itemsFrom_eq_ok, text_eq_ok, Value.list.injEq]
    constructor
    · rintro ⟨texts, htexts⟩
      exact ⟨vs, texts, rfl, htexts⟩
    · rintro ⟨_, texts, rfl, htexts⟩
      exact ⟨texts, htexts⟩
  | _ => simp [sequence]

theorem positive_eq_nil_iff : ((positive v).map (·.1)).faults = [] ↔ ∃ n, integer v = .ok n ∧ 0 < n := by
  have hmap : ((positive v).map (·.1)).faults = (positive v).faults :=
    Checked.faults_map (·.1) (positive v)
  rw [hmap, Checked.faults_eq_nil_iff]
  simp only [positive, Checked.andThen_eq_ok]
  constructor
  · rintro ⟨k, n, hn, h⟩
    split at h
    · next hpos => exact ⟨n, hn, hpos⟩
    · cases h
  · rintro ⟨n, hn, hpos⟩
    exact ⟨_, n, hn, dif_pos hpos⟩

theorem unexpected_eq_nil_iff {known : List String} :
    unexpected known entries = [] ↔ ∀ e ∈ entries, e.1 ∈ known := by
  simp [unexpected]

/-- A field of one spelling has no faults when its entry, if it is there, has none. -/
theorem defaulted_eq_nil_iff {name : String} {absent : α} {check : Value → Checked α} :
    (defaulted entries (.plain name) absent check).faults = [] ↔
      ∀ v, Value.lookup name entries = some v → (check v).faults = [] := by
  rw [faults_defaulted_plain]
  cases Value.lookup name entries <;> simp

end Check

/-- What a table may say of one linter. -/
structure LinterSettings.Described (entries : List (String × Value)) : Prop where
  known : ∀ e ∈ entries, e.1 ∈ ["enabled", "bin", "args"]
  enabled : ∀ v, Value.lookup "enabled" entries = some v → ∃ b, Check.truth v = .ok b
  bin : ∀ v, Value.lookup "bin" entries = some v → v = .null ∨ ∃ s, v.string? = some s
  args : ∀ v, Value.lookup "args" entries = some v → ∃ vs texts, v = .list vs ∧
    List.Forall₂ (fun w s => Value.string? w = some s) vs texts

theorem LinterSettings.check_eq_nil_iff {v : Value} :
    (check v).faults = [] ↔ ∃ entries, v = .table entries ∧ Described entries := by
  cases v with
  | table entries =>
    simp only [check, Check.record, Checked.faults_also, Checked.faults_seq, Checked.faults_map,
      List.append_eq_nil_iff, Check.defaulted_eq_nil_iff, Check.unexpected_eq_nil_iff,
      Check.optional_eq_nil_iff, Check.sequence_text_eq_nil_iff]
    simp only [Checked.faults_eq_nil_iff, Check.text_eq_ok, Value.table.injEq]
    constructor
    · rintro ⟨⟨⟨henabled, hbin⟩, hargs⟩, hknown⟩
      exact ⟨entries, rfl, hknown, henabled, hbin, hargs⟩
    · rintro ⟨_, rfl, hknown, henabled, hbin, hargs⟩
      exact ⟨⟨⟨henabled, hbin⟩, hargs⟩, hknown⟩
  | _ => simp [check, Check.record, Checked.refuse, Checked.faults]

namespace Config

variable {source : String} {es es' : List (String × Value)} {e : String × Value} {v : Value}

/-- A field of a configuration. -/
inductive Field where
  | linters
  | includes
  | excludes
  | timeout
  | failOn

namespace Field

/-- The fields, in the order in which they are checked. -/
def all : List Field := [linters, includes, excludes, timeout, failOn]

/-- The key under which a field is read. -/
def name : Field → String
  | linters => "linters"
  | includes => "include"
  | excludes => "exclude"
  | timeout => "timeout"
  | failOn => "fail_on"

theorem mem_all (f : Field) : f ∈ all := by cases f <;> simp [all]

/-- What may be said under a field. -/
def Accepts : Field → Value → Prop
  | linters, v => ∃ entries, v = .table entries ∧ ∀ e ∈ entries, (∃ l : Linter, e.1 = l.name) ∧
      ∃ said, e.2 = .table said ∧ LinterSettings.Described said
  | includes, v | excludes, v => v = .null ∨ ∃ vs texts, v = .list vs ∧
      List.Forall₂ (fun w s => Value.string? w = some s) vs texts
  | timeout, v => v = .null ∨ ∃ n, Check.integer v = .ok n ∧ 0 < n
  | failOn, v => v = .null ∨ ∃ s severity, v = .text s ∧ Severity.read? s = some severity

/-- What is wrong with what is said under a field. -/
def faults : Field → Value → List Check.Fault
  | linters, v =>
    let said : Checked (List (Linter × LinterSettings)) :=
      match v with
      | .table entries => checkLinters entries
      | _ => .refuse .notTable
    said.faults
  | includes, v | excludes, v => (Check.optional (Check.sequence .memory Check.text) v).faults
  | timeout, v => (Check.optional (fun v => (Check.positive v).map (·.1)) v).faults
  | failOn, v => (checkFailOn v).faults

end Field

theorem checkName_eq_nil_iff {name : String} : (checkName name).faults = [] ↔ ∃ l : Linter, name = l.name := by
  simp only [Checked.faults_eq_nil_iff, checkName_eq_ok_iff]

/-- What is said of linters is right when what each entry says is. -/
theorem checkLinters_eq_nil_iff {entries : List (String × Value)} :
    (checkLinters entries).faults = [] ↔ ∀ e ∈ entries, (∃ l : Linter, e.1 = l.name) ∧
      ∃ said, e.2 = .table said ∧ LinterSettings.Described said := by
  induction entries with
  | nil => simp [checkLinters, Checked.faults]
  | cons e rest ih =>
    obtain ⟨name, v⟩ := e
    simp only [checkLinters, Checked.faults_seq, Checked.faults_map, Checked.faults_under,
      List.append_eq_nil_iff, List.map_eq_nil_iff, checkName_eq_nil_iff,
      LinterSettings.check_eq_nil_iff, ih, List.forall_mem_cons]

theorem checkFailOn_eq_nil_iff : (checkFailOn v).faults = [] ↔
    v = .null ∨ ∃ s severity, v = .text s ∧ Severity.read? s = some severity := by
  cases v with
  | text s =>
    rw [checkFailOn]
    cases hread : Severity.read? s <;> simp [Checked.refuse, Checked.faults, hread]
  | _ => simp [checkFailOn, Checked.refuse, Checked.faults]

/-- **What may be said under a field is what its check accepts.** -/
theorem Field.faults_eq_nil_iff (f : Field) : f.faults v = [] ↔ f.Accepts v := by
  cases f with
  | linters =>
    rw [Accepts]
    cases v with
    | table entries => simp [faults, checkLinters_eq_nil_iff]
    | _ => simp [faults, Checked.refuse, Checked.faults]
  | includes | excludes =>
    rw [faults, Accepts, Check.optional_eq_nil_iff, Check.sequence_text_eq_nil_iff]
  | timeout => rw [faults, Accepts, Check.optional_eq_nil_iff, Check.positive_eq_nil_iff]
  | failOn => rw [faults, Accepts, checkFailOn_eq_nil_iff]

/-- The faults of a configuration are those under its fields and its unknown keys. -/
theorem faults_check (es : List (String × Value)) : (check es).faults =
    (Field.all.flatMap fun f => (Value.lookup f.name (unifyNames es)).elim [] fun v =>
      (f.faults v).map (Check.Fault.under (.key f.name))) ++
    Check.unexpected (Field.all.map Field.name) (unifyNames es) := by
  simp only [check, Checked.faults_also, Checked.faults_seq, Checked.faults_map,
    Check.faults_defaulted_plain, Field.all, List.flatMap_cons, List.flatMap_nil, List.append_nil,
    List.append_assoc]
  rfl

/-- The field that is read under a key. -/
def Field.ofName? (key : String) : Option Field := all.find? fun f => f.name = key

theorem Field.ofName?_eq_some_iff {key : String} {f : Field} : ofName? key = some f ↔ key = f.name := by
  constructor
  · intro h
    have hname := List.find?_some h
    exact (of_decide_eq_true hname).symm
  · rintro rfl
    cases f <;> rfl

theorem mem_names_iff {key : String} : key ∈ Field.all.map Field.name ↔ ∃ f : Field, key = f.name := by
  rw [List.mem_map]
  constructor
  · rintro ⟨f, -, rfl⟩
    exact ⟨f, rfl⟩
  · rintro ⟨f, rfl⟩
    exact ⟨f, f.mem_all, rfl⟩

/-- An entry is one of a field, and says what may be said there. -/
def Fits (e : String × Value) : Prop := ∃ f : Field, unified e.1 = f.name ∧ f.Accepts e.2

/-- What is wrong with an entry. -/
def faultsOf (e : String × Value) : List Check.Fault :=
  match Field.ofName? (unified e.1) with
  | some f => (f.faults e.2).map (Check.Fault.under (.key f.name))
  | none => [⟨[.key (unified e.1)], .unexpected⟩]

/-- A fault lies under the key that an entry is read under. -/
def Blames (fault : Check.Fault) (e : String × Value) : Prop :=
  fault.place.head? = some (.key (unified e.1))

theorem faultsOf_eq_nil_iff : faultsOf e = [] ↔ Fits e := by
  rw [faultsOf, Fits]
  simp only [← Field.ofName?_eq_some_iff]
  cases Field.ofName? (unified e.1) with
  | none => simp
  | some f => simp [Field.faults_eq_nil_iff]

theorem blames_of_mem {fault : Check.Fault} (h : fault ∈ faultsOf e) : Blames fault e := by
  rw [faultsOf] at h
  rw [Blames]
  split at h
  · next f hf =>
    obtain ⟨part, -, rfl⟩ := List.mem_map.1 h
    rw [Field.ofName?_eq_some_iff.1 hf]
    rfl
  · rw [List.mem_singleton.1 h]
    rfl

/-- **The faults of a configuration are those of the entries that count.** -/
theorem mem_faults_check_iff {fault : Check.Fault} :
    fault ∈ (check es).faults ↔ ∃ e, Standing es e ∧ fault ∈ faultsOf e := by
  rw [faults_check, List.mem_append, List.mem_flatMap]
  constructor
  · rintro (⟨f, -, h⟩ | h)
    · cases hv : Value.lookup f.name (unifyNames es) with
      | none =>
        rw [hv] at h
        cases h
      | some v =>
        obtain ⟨e, hstanding, hkey, rfl⟩ := lookup_unifyNames_iff.1 hv
        rw [hv] at h
        refine ⟨e, hstanding, ?_⟩
        rw [faultsOf, Field.ofName?_eq_some_iff.2 hkey]
        exact h
    · obtain ⟨e', he', rfl⟩ := List.mem_map.1 h
      obtain ⟨hmem, hunknown⟩ := List.mem_filter.1 he'
      obtain ⟨e, hstanding, rfl⟩ := mem_unifyNames_iff.1 hmem
      refine ⟨e, hstanding, ?_⟩
      have hnone : Field.ofName? (unified e.1) = none := by
        refine Option.eq_none_iff_forall_ne_some.2 fun f hf => ?_
        have hknown := mem_names_iff.2 ⟨f, Field.ofName?_eq_some_iff.1 hf⟩
        simp [hknown] at hunknown
      rw [faultsOf, hnone]
      exact List.mem_singleton_self _
  · rintro ⟨e, hstanding, h⟩
    rw [faultsOf] at h
    split at h
    · next f hf =>
      have hkey := Field.ofName?_eq_some_iff.1 hf
      refine .inl ⟨f, f.mem_all, ?_⟩
      rw [lookup_unifyNames_iff.2 ⟨e, hstanding, hkey, rfl⟩]
      exact h
    · next hnone =>
      rw [List.mem_singleton.1 h]
      refine .inr (List.mem_map.2 ⟨(unified e.1, e.2), ?_, rfl⟩)
      refine List.mem_filter.2 ⟨mem_unifyNames_iff.2 ⟨e, hstanding, rfl⟩, ?_⟩
      have hunknown : unified e.1 ∉ Field.all.map Field.name := by
        intro hmem
        obtain ⟨f, hf⟩ := mem_names_iff.1 hmem
        rw [Field.ofName?_eq_some_iff.2 hf] at hnone
        cases hnone
      simpa using hunknown

theorem faults_check_eq_nil_iff : (check es).faults = [] ↔ ∀ e, Standing es e → Fits e := by
  rw [List.eq_nil_iff_forall_not_mem]
  simp only [mem_faults_check_iff, ← faultsOf_eq_nil_iff, List.eq_nil_iff_forall_not_mem]
  constructor
  · exact fun h e hstanding fault hmem => h fault ⟨e, hstanding, hmem⟩
  · rintro h fault ⟨e, hstanding, hmem⟩
    exact h e hstanding fault hmem

theorem ofEntries_of_faults (h : (check es).faults ≠ []) :
    ofEntries source es = .error (invalidMessage source (check es).faults) := by
  rw [ofEntries]
  cases hcheck : check es with
  | ok c => exact absurd (hcheck ▸ rfl) h
  | refused first rest => rfl

/-! ## The order of the entries -/

/-- Where no two keys are read as the same, what is looked up does not depend on the order of the
entries. -/
theorem lookup_unifyNames_of_perm (hdistinct : Distinct es) (hperm : es.Perm es') (key : String) :
    Value.lookup key (unifyNames es) = Value.lookup key (unifyNames es') := by
  have hdistinct' : Distinct es' := (hperm.map _).nodup hdistinct
  refine Option.ext fun v => ?_
  simp only [lookup_unifyNames_iff, standing_iff_mem hdistinct, standing_iff_mem hdistinct',
    hperm.mem_iff]

/-- Unknown keys are told in their order. -/
theorem unexpected_perm (hdistinct : Distinct es) (hperm : es.Perm es') (known : List String) :
    (Check.unexpected known (unifyNames es)).Perm (Check.unexpected known (unifyNames es')) := by
  have hdistinct' : Distinct es' := (hperm.map _).nodup hdistinct
  rw [unifyNames_of_distinct hdistinct, unifyNames_of_distinct hdistinct', Check.unexpected,
    Check.unexpected]
  exact ((hperm.map _).filter _).map _

theorem faults_check_perm (hdistinct : Distinct es) (hperm : es.Perm es') :
    (check es).faults.Perm (check es').faults := by
  rw [faults_check, faults_check]
  simp only [lookup_unifyNames_of_perm hdistinct hperm]
  exact (unexpected_perm hdistinct hperm _).append_left _

/-- **The order of entries** does not tell which configuration they describe. -/
theorem check_eq_ok_iff_of_perm (hdistinct : Distinct es) (hperm : es.Perm es') {c : Config} :
    check es = .ok c ↔ check es' = .ok c := by
  have hunexpected (known : List String) : Check.unexpected known (unifyNames es) = [] ↔
      Check.unexpected known (unifyNames es') = [] :=
    ⟨fun h => (h ▸ unexpected_perm hdistinct hperm known).nil_eq.symm,
      fun h => (h ▸ unexpected_perm hdistinct hperm known).eq_nil⟩
  simp only [check, Check.defaulted, Check.Names.find, lookup_unifyNames_of_perm hdistinct hperm,
    Checked.also_eq_ok, hunexpected]

/-- Entries with known keys are refused alike in any order. -/
theorem ofEntries_of_perm (hdistinct : Distinct es) (hperm : es.Perm es')
    (hknown : ∀ e ∈ es, ∃ f : Field, unified e.1 = f.name) : ofEntries source es = ofEntries source es' := by
  have hnone : ∀ es', es.Perm es' → Check.unexpected (Field.all.map Field.name) (unifyNames es') = [] := by
    intro es' hperm
    refine Check.unexpected_eq_nil_iff.2 fun e' he' => ?_
    obtain ⟨e, hstanding, rfl⟩ := mem_unifyNames_iff.1 he'
    exact mem_names_iff.2 (hknown e (hperm.mem_iff.2 hstanding.mem))
  have hfaults : (check es).faults = (check es').faults := by
    rw [faults_check, faults_check, hnone es (.refl es), hnone es' hperm]
    simp only [lookup_unifyNames_of_perm hdistinct hperm]
  by_cases hnil : (check es).faults = []
  · obtain ⟨c, hc⟩ := (Checked.faults_eq_nil_iff _).1 hnil
    rw [ofEntries_eq_ok_iff.2 hc, ofEntries_eq_ok_iff.2 ((check_eq_ok_iff_of_perm hdistinct hperm).1 hc)]
  · rw [ofEntries_of_faults hnil, ofEntries_of_faults (hfaults ▸ hnil), hfaults]

/-! ## What is accepted and what is refused -/

/-- What becomes of the entries of a configuration. -/
structure Validated (source : String) (es : List (String × Value)) : Prop where
  /-- there is a configuration when each entry that counts is in order -/
  accepted_iff : (∃ c, ofEntries source es = .ok c) ↔ ∀ e, Standing es e → Fits e
  /-- else the source is named and what is wrong with each entry that counts, and nothing else -/
  refused : (∃ e, Standing es e ∧ ¬ Fits e) → ∃ faults,
    ofEntries source es = .error (invalidMessage source faults) ∧
      source.toList <:+: (invalidMessage source faults).toList ∧
      (∀ fault ∈ faults, ∃ e, Standing es e ∧ ¬ Fits e ∧ Blames fault e) ∧
      ∀ e, Standing es e → ¬ Fits e → ∃ fault ∈ faults, Blames fault e
  /-- an unknown key is refused wherever it stands -/
  unknown : ∀ e ∈ es, (∀ f : Field, unified e.1 ≠ f.name) →
    ∃ message, ofEntries source es = .error message
  /-- all entries count where no two keys are read as the same -/
  standing : Distinct es → ∀ e, Standing es e ↔ e ∈ es
  /-- and then the order of the entries only tells in which order unknown keys are told -/
  unordered : Distinct es → ∀ es', es.Perm es' →
    (∀ c, ofEntries source es = .ok c ↔ ofEntries source es' = .ok c) ∧
      (check es).faults.Perm (check es').faults ∧
      ((∀ e ∈ es, ∃ f : Field, unified e.1 = f.name) → ofEntries source es = ofEntries source es')

theorem accepted_iff_standing : (∃ c, ofEntries source es = .ok c) ↔ ∀ e, Standing es e → Fits e := by
  simp only [ofEntries_eq_ok_iff, ← faults_check_eq_nil_iff, Checked.faults_eq_nil_iff]

theorem refused_of_standing (h : ∃ e, Standing es e ∧ ¬ Fits e) :
    ofEntries source es = .error (invalidMessage source (check es).faults) := by
  obtain ⟨e, hstanding, hfits⟩ := h
  exact ofEntries_of_faults fun hnil => hfits (faults_check_eq_nil_iff.1 hnil e hstanding)

/-- **Entries are validated**: of the entries with keys that are read as the same the last one, and
all others. -/
theorem validated (source : String) (es : List (String × Value)) : Validated source es where
  accepted_iff := accepted_iff_standing
  refused h := by
    refine ⟨(check es).faults, refused_of_standing h, infix_append_append _ _ _ _,
      fun fault hfault => ?_, fun e hstanding hfits => ?_⟩
    · obtain ⟨e, hstanding, hmem⟩ := mem_faults_check_iff.1 hfault
      exact ⟨e, hstanding, fun hfits => List.ne_nil_of_mem hmem (faultsOf_eq_nil_iff.2 hfits),
        blames_of_mem hmem⟩
    · obtain ⟨fault, hmem⟩ := List.exists_mem_of_ne_nil _ (mt faultsOf_eq_nil_iff.1 hfits)
      exact ⟨fault, mem_faults_check_iff.2 ⟨e, hstanding, hmem⟩, blames_of_mem hmem⟩
  unknown e he hunknown := by
    obtain ⟨e', hstanding, hkey⟩ := exists_standing he
    refine ⟨_, refused_of_standing ⟨e', hstanding, ?_⟩⟩
    rintro ⟨f, hf, -⟩
    exact hunknown f (hkey ▸ hf)
  standing hdistinct e := standing_iff_mem hdistinct
  unordered hdistinct es' hperm := by
    refine ⟨fun c => ?_, faults_check_perm hdistinct hperm, ofEntries_of_perm hdistinct hperm⟩
    rw [ofEntries_eq_ok_iff, ofEntries_eq_ok_iff, check_eq_ok_iff_of_perm hdistinct hperm]

namespace Sample

/-- Entries of which two do not fit: one gives no time, and one has a key that is not known. -/
def unfit : List (String × Value) :=
  [("timeout", .int 0), ("fail-on", .text "Error"), ("colour", .bool true)]

theorem distinct_unfit : Distinct unfit := by
  rw [Distinct]
  decide +kernel

theorem not_fits_timeout : ¬ Fits ("timeout", .int 0) := by
  rw [← faultsOf_eq_nil_iff]
  decide +kernel

/-- Two entries with keys that are read as the same, of which the first names no severity. -/
def twice : List (String × Value) := [("fail-on", .text "bogus"), ("fail_on", .text "error")]

theorem not_fits_bogus : ¬ Fits ("fail-on", .text "bogus") := by
  rw [← faultsOf_eq_nil_iff]
  decide +kernel

theorem fits_error : Fits ("fail_on", .text "error") := by
  rw [← faultsOf_eq_nil_iff]
  decide +kernel

/-- The entry that does not fit is not looked at where the other one follows. -/
theorem exists_ofEntries_twice (source : String) : ∃ c, ofEntries source twice = .ok c := by
  refine accepted_iff_standing.2 fun e hstanding => ?_
  rw [show twice = [("fail-on", .text "bogus")] ++ [("fail_on", .text "error")] from rfl,
    standing_concat_iff] at hstanding
  rcases hstanding with rfl | ⟨hfirst, hkey⟩
  · exact fits_error
  · have hdash : unified "fail-on" = "fail_on" := by decide +kernel
    have hplain : unified "fail_on" = "fail_on" := by decide +kernel
    rw [List.mem_singleton.1 hfirst.mem] at hkey
    exact absurd (hdash.trans hplain.symm) hkey

theorem standing_bogus : Standing twice.reverse ("fail-on", .text "bogus") := by
  rw [show twice.reverse = [("fail_on", .text "error")] ++ [("fail-on", .text "bogus")] from rfl,
    standing_concat_iff]
  exact .inl rfl

end Sample

/-- What `validated` says of entries that do not all fit, in the order in which they stand and in
the opposite one. -/
theorem validated_unfit : Distinct Sample.unfit ∧
    (∃ faults, ofEntries "lint.toml" Sample.unfit = .error (invalidMessage "lint.toml" faults) ∧
      ∃ fault ∈ faults, Blames fault ("timeout", .int 0)) ∧
    ∀ c, ofEntries "lint.toml" Sample.unfit = .ok c ↔ ofEntries "lint.toml" Sample.unfit.reverse = .ok c := by
  have h := validated "lint.toml" Sample.unfit
  have htimeout : Standing Sample.unfit ("timeout", .int 0) :=
    (h.standing Sample.distinct_unfit _).2 List.mem_cons_self
  obtain ⟨faults, herror, -, -, hall⟩ := h.refused ⟨_, htimeout, Sample.not_fits_timeout⟩
  exact ⟨Sample.distinct_unfit, ⟨faults, herror, hall _ htimeout Sample.not_fits_timeout⟩,
    (h.unordered Sample.distinct_unfit _ (List.reverse_perm _).symm).1⟩

/-- **Not all entries are validated.** Entries under different keys are accepted although one of
them does not fit, and in another order the same entries are refused. -/
theorem not_validated :
    ¬ (∀ source es, (es.map (·.1)).Nodup → (∃ e ∈ es, ¬ Fits e) →
      ∃ message, ofEntries source es = .error message) ∧
    ¬ (∀ source es es', (es.map (·.1)).Nodup → es.Perm es' →
      ((∃ c, ofEntries source es = .ok c) ↔ ∃ c, ofEntries source es' = .ok c)) := by
  have hkeys : (Sample.twice.map (·.1)).Nodup := by decide
  constructor
  · intro h
    obtain ⟨c, hc⟩ := Sample.exists_ofEntries_twice "inline"
    obtain ⟨message, hmessage⟩ := h "inline" Sample.twice hkeys
      ⟨_, List.mem_cons_self, Sample.not_fits_bogus⟩
    cases hc.symm.trans hmessage
  · intro h
    obtain ⟨c, hc⟩ := (h "inline" Sample.twice Sample.twice.reverse hkeys
      (List.reverse_perm _).symm).1 (Sample.exists_ofEntries_twice "inline")
    have hrefused : ofEntries "inline" Sample.twice.reverse = .error _ :=
      refused_of_standing ⟨_, Sample.standing_bogus, Sample.not_fits_bogus⟩
    cases hrefused.symm.trans hc

end Config
end LintMerge
