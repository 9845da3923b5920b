/-
# When a check gives a value

A computation that a fault may end gives a value when each of its steps does. A check of
a record is built from checks of its parts: it gives a value exactly when all
of them do, and then the value is built from theirs. Each way of putting checks together
has one equivalence here that says so, and each check of a part one that says which data
it accepts; a check of a record is taken apart, or carried out, by rewriting with them. What a
check finds wrong is what those of its parts do, in their order.
-/

import Mathlib.Data.List.Forall2
import LintMerge.Issue.Basic
import LintMerge.Output.Document

namespace LintMerge

/-- Of two lists that are related item by item, each item of the first has one of the second. -/
theorem exists_of_forall₂ {α β : Type} {R : α → β → Prop} {as : List α} {bs : List β}
    (h : List.Forall₂ R as bs) {a : α} (ha : a ∈ as) : ∃ b ∈ bs, R a b := by
  induction h with
  | nil => exact absurd ha List.not_mem_nil
  | @cons a' b as bs hb _ ih =>
    rcases List.mem_cons.1 ha with rfl | ha
    · exact ⟨b, List.mem_cons_self, hb⟩
    · obtain ⟨b', hmem, hb'⟩ := ih ha
      exact ⟨b', List.mem_cons_of_mem _ hmem, hb'⟩

namespace Faulty

variable {ε α β : Type}

/-- A step of a computation that a fault may end gives a value when its parts do. -/
theorem bind_eq_ok {x : Except ε α} {f : α → Except ε β} {b : β} :
    x >>= f = .ok b ↔ ∃ a, x = .ok a ∧ f a = .ok b := by
  cases x <;> simp [bind, Except.bind]

theorem pure_eq_ok {a b : α} : (pure a : Except ε α) = .ok b ↔ a = b := by
  show Except.ok a = .ok b ↔ a = b
  rw [Except.ok.injEq]

/-- A step of a computation ends with a fault when one of its parts does. -/
theorem bind_eq_error {x : Except ε α} {f : α → Except ε β} {e : ε} :
    x >>= f = .error e ↔ x = .error e ∨ ∃ a, x = .ok a ∧ f a = .error e := by
  cases x <;> simp [bind, Except.bind]

/-- A fault told in other words. -/
theorem mapError_eq_error {ε' : Type} {f : ε → ε'} {x : Except ε α} {e : ε'} :
    x.mapError f = .error e ↔ ∃ e', x = .error e' ∧ f e' = e := by
  cases x <;> simp [Except.mapError]

/-- A value is the same however faults are told. -/
theorem mapError_eq_ok {ε' : Type} {f : ε → ε'} {x : Except ε α} {a : α} :
    x.mapError f = .ok a ↔ x = .ok a := by
  cases x <;> simp [Except.mapError]

/-- A computation over the items of a list gives the values of the items. -/
theorem mapM_eq_ok {f : α → Except ε β} {as : List α} {bs : List β} :
    as.mapM f = .ok bs ↔ List.Forall₂ (fun a b => f a = .ok b) as bs := by
  induction as generalizing bs with
  | nil => rw [List.mapM_nil, pure_eq_ok, List.forall₂_nil_left_iff, eq_comm]
  | cons a rest ih =>
    rw [List.mapM_cons, bind_eq_ok]
    constructor
    · rintro ⟨b, hb, hrest⟩
      obtain ⟨more, hmore, hbs⟩ := bind_eq_ok.1 hrest
      rw [← pure_eq_ok.1 hbs]
      exact .cons hb (ih.1 hmore)
    · rintro (_ | ⟨hb, hmore⟩)
      exact ⟨_, hb, bind_eq_ok.2 ⟨_, ih.2 hmore, rfl⟩⟩

/-- A computation over the items of a list that ends with a fault does so at an item. -/
theorem exists_of_mapM_eq_error {f : α → Except ε β} {as : List α} {e : ε}
    (h : as.mapM f = .error e) : ∃ a ∈ as, f a = .error e := by
  induction as with
  | nil => cases h
  | cons a rest ih =>
    rw [List.mapM_cons] at h
    rcases bind_eq_error.1 h with h | ⟨b, -, h⟩
    · exact ⟨a, List.mem_cons_self, h⟩
    · rcases bind_eq_error.1 h with h | ⟨bs, -, h⟩
      · obtain ⟨a', hmem, ha'⟩ := ih h
        exact ⟨a', List.mem_cons_of_mem _ hmem, ha'⟩
      · cases h

/-- A computation on what may be missing that ends with a fault does so on what is there. -/
theorem exists_of_optionMapM_eq_error {f : α → Except ε β} {o : Option α} {e : ε}
    (h : o.mapM f = .error e) : ∃ a, o = some a ∧ f a = .error e := by
  cases o with
  | none => cases h
  | some a =>
    rcases bind_eq_error.1 h with h | ⟨_, -, h⟩
    · exact ⟨a, rfl, h⟩
    · cases h

/-- Each value of a computation over the items of a list is the value of an item. -/
theorem exists_of_mem_mapM {f : α → Except ε β} {as : List α} {bs : List β}
    (h : as.mapM f = .ok bs) {b : β} (hb : b ∈ bs) : ∃ a ∈ as, f a = .ok b :=
  exists_of_forall₂ (mapM_eq_ok.1 h).flip hb

/-- Each item of a computation over the items of a list has a value. -/
theorem exists_of_mem_of_mapM {f : α → Except ε β} {as : List α} {bs : List β}
    (h : as.mapM f = .ok bs) {a : α} (ha : a ∈ as) : ∃ b ∈ bs, f a = .ok b :=
  exists_of_forall₂ (mapM_eq_ok.1 h) ha

end Faulty

namespace Checked

variable {α β : Type}

@[simp] theorem pure_eq_ok {a b : α} : (pure a : Checked α) = .ok b ↔ a = b := by
  show Checked.ok a = .ok b ↔ a = b
  rw [Checked.ok.injEq]

@[simp] theorem refuse_ne_ok {p : Check.Problem} {a : α} : ¬ refuse p = .ok a := by
  intro h
  cases h

@[simp] theorem map_eq_ok {f : α → β} {x : Checked α} {b : β} :
    f <$> x = .ok b ↔ ∃ a, x = .ok a ∧ f a = b := by
  cases x with
  | ok a =>
    show Checked.ok (f a) = .ok b ↔ _
    simp
  | refused first rest =>
    show Checked.refused first rest = .ok b ↔ _
    simp

@[simp] theorem seq_eq_ok {f : Checked (α → β)} {x : Checked α} {b : β} :
    f <*> x = .ok b ↔ ∃ g a, f = .ok g ∧ x = .ok a ∧ g a = b := by
  show f.and x = .ok b ↔ _
  cases f <;> cases x <;> simp [Checked.and]

@[simp] theorem andThen_eq_ok {x : Checked α} {f : α → Checked β} {b : β} :
    x.andThen f = .ok b ↔ ∃ a, x = .ok a ∧ f a = .ok b := by
  cases x <;> simp [andThen]

@[simp] theorem also_eq_ok {x : Checked α} {more : List Check.Fault} {a : α} :
    x.also more = .ok a ↔ x = .ok a ∧ more = [] := by
  cases x <;> cases more <;> simp [also]

@[simp] theorem under_eq_ok {s : Check.Step} {x : Checked α} {a : α} :
    x.under s = .ok a ↔ x = .ok a := by
  cases x <;> simp [under]

/-- A check of each item gives the list of the values of the items. -/
theorem itemsFrom_eq_ok {check : Value → Checked α} {n : Nat} {vs : List Value} {as : List α} :
    itemsFrom check n vs = .ok as ↔ List.Forall₂ (fun v a => check v = .ok a) vs as := by
  induction vs generalizing n as with
  | nil =>
    rw [itemsFrom, List.forall₂_nil_left_iff, Checked.ok.injEq, eq_comm]
  | cons v rest ih =>
    rw [itemsFrom]
    constructor
    · intro h
      obtain ⟨g, more, hg, hmore, rfl⟩ := seq_eq_ok.1 h
      obtain ⟨a, ha, rfl⟩ := map_eq_ok.1 hg
      exact .cons (under_eq_ok.1 ha) (ih.1 hmore)
    · rintro (_ | ⟨ha, hmore⟩)
      exact seq_eq_ok.2 ⟨_, _, map_eq_ok.2 ⟨_, under_eq_ok.2 ha, rfl⟩, ih.2 hmore, rfl⟩

/-! ### The faults of a check that is put together -/

@[simp] theorem faults_map (f : α → β) (x : Checked α) : (f <$> x).faults = x.faults := by
  cases x <;> rfl

@[simp] theorem faults_seq (f : Checked (α → β)) (x : Checked α) :
    (f <*> x).faults = f.faults ++ x.faults :=
  faults_and f x

@[simp] theorem faults_also (x : Checked α) (more : List Check.Fault) :
    (x.also more).faults = x.faults ++ more := by
  cases x <;> cases more <;> simp [also, faults]

@[simp] theorem faults_under (s : Check.Step) (x : Checked α) :
    (x.under s).faults = x.faults.map (Check.Fault.under s) := by
  cases x <;> rfl

end Checked

namespace Check

@[simp] theorem text_eq_ok {v : Value} {s : String} : text v = .ok s ↔ v.string? = some s := by
  rw [text]
  cases v.string? <;> simp [Checked.refuse]

/-- A field of one spelling has its value for absence where it is not there, and else the value of
its entry. -/
theorem defaulted_plain_eq_ok {α : Type} {entries : List (String × Value)} {name : String}
    {absent a : α} {check : Value → Checked α} :
    defaulted entries (.plain name) absent check = .ok a ↔
      (Value.lookup name entries = none ∧ absent = a) ∨
        ∃ v, Value.lookup name entries = some v ∧ check v = .ok a := by
  rw [defaulted, Names.find, Names.plain]
  cases Value.lookup name entries <;> simp

/-- The faults of a field of one spelling are those of its entry, seen from the record. -/
theorem faults_defaulted_plain {α : Type} (entries : List (String × Value)) (name : String)
    (absent : α) (check : Value → Checked α) :
    (defaulted entries (.plain name) absent check).faults =
      (Value.lookup name entries).elim [] fun v => (check v).faults.map (Fault.under (.key name)) := by
  rw [defaulted, Names.find, Names.plain]
  cases Value.lookup name entries with
  | none => rfl
  | some v => exact Checked.faults_under _ _

/-- An integer is accepted when it reaches the bound. -/
@[simp] theorem atLeast_int_eq_ok {bound : Nat} {n : Int} {k : { k : Nat // bound ≤ k }} :
    atLeast bound (.int n) = .ok k ↔ n = k.1 := by
  have hk := k.2
  rw [atLeast, Checked.andThen_eq_ok]
  constructor
  · rintro ⟨m, hm, h⟩
    cases hm
    split at h
    · next hb =>
      cases h
      exact (Int.toNat_of_nonneg (by omega)).symm
    · cases h
  · rintro rfl
    refine ⟨_, rfl, ?_⟩
    rw [dif_pos (by omega)]
    simp

@[simp] theorem someText_eq_ok {v : Value} {s : { s : String // s ≠ "" }} :
    someText v = .ok s ↔ v = .text s.1 := by
  obtain ⟨s, hs⟩ := s
  cases v with
  | text s' =>
    rw [someText, Checked.andThen_eq_ok, Value.text.injEq]
    · constructor
      · rintro ⟨s'', htext, h⟩
        cases text_eq_ok.1 htext
        split at h <;> cases h
        rfl
      · rintro rfl
        exact ⟨s', rfl, dif_neg hs⟩
    · exact nofun
  | _ => exact iff_of_false nofun nofun

end Check

namespace Issue

@[simp] theorem checkPath_eq_ok {v : Value} {s : { s : String // IsPath s }} :
    checkPath v = .ok s ↔ v.string? = some s.1 := by
  obtain ⟨s, hne, habs⟩ := s
  rw [checkPath, Checked.andThen_eq_ok]
  constructor
  · rintro ⟨s', h, h'⟩
    split at h'
    · cases h'
    · split at h'
      · cases h'
      · cases h'
        exact Check.text_eq_ok.1 h
  · intro h
    refine ⟨s, Check.text_eq_ok.2 h, ?_⟩
    rw [dif_neg hne]
    split
    · next h => exact absurd (habs.symm.trans h) (by decide)
    · rfl

/-- What an issue is when the check of its parts ends with it: their values. -/
theorem Parts.finish_eq_ok {torn : TornTexts} {p : Parts} {i : Issue} : p.finish torn = .ok i ↔
    i.path = p.path.1 ∧ i.span.line = p.line.1 ∧ i.span.column = p.column.1 ∧
      i.span.endLine = p.endLine.1 ∧ i.span.endColumn = p.endColumn.1 ∧ i.severity = p.severity ∧
      i.ruleId = p.ruleId.1 ∧ i.message = p.message ∧ i.source = p.source ∧ i.fix = p.fix ∧
      i.about = p.about ∧ i.torn = torn := by
  constructor
  · intro h
    rw [finish] at h
    split at h
    · cases h
    · split at h
      · cases h
        exact ⟨rfl, rfl, rfl, rfl, rfl, rfl, rfl, rfl, rfl, rfl, rfl, rfl⟩
      · cases h
  · obtain ⟨path, ⟨line, column, endLine, endColumn, _, _, _, ordered⟩, severity, ruleId, message,
      source, fix, about, _, _, _⟩ := i
    rintro ⟨rfl, rfl, rfl, rfl, rfl, rfl, rfl, rfl, rfl, rfl, rfl, rfl⟩
    rw [finish, if_neg (by omega), dif_pos ordered]

/-- The name of a rule is a text where no halves of pairs stand in it. -/
theorem Draft.rule_eq_text_iff {d : Draft} {s : String} :
    d.rule = .text s ↔ s = d.ruleId ∧ d.tornRule = none := by
  rw [rule]
  cases d.tornRule <;> simp [eq_comm]

/-- **Drafts.** The issue of a draft says what the draft says, and an issue that says it is
the issue of the draft, if the name of its rule is not torn. -/
theorem ofDraft_eq_ok {d : Draft} {i : Issue} : ofDraft d = .ok i ↔
    i.path = d.path ∧ (i.span.line : Int) = d.line ∧ (i.span.column : Int) = d.column ∧
      (i.span.endLine : Int) = d.endLine ∧ (i.span.endColumn : Int) = d.endColumn ∧
      i.severity = d.severity ∧ i.ruleId = d.ruleId ∧ i.message = d.message ∧
      i.source = d.source ∧ i.fix = d.fix ∧ i.about = d.about ∧ i.torn = d.torn ∧
      d.tornRule = none := by
  rw [ofDraft, Checked.andThen_eq_ok]
  constructor
  · rintro ⟨parts, hparts, hfinish⟩
    simp only [Checked.seq_eq_ok, Checked.map_eq_ok, Checked.under_eq_ok, checkPath_eq_ok,
      Check.atLeast_int_eq_ok, Check.someText_eq_ok, Checked.ok.injEq, Value.string?_text, Option.some.injEq,
      Draft.rule_eq_text_iff] at hparts
    obtain ⟨_, _, ⟨_, _, ⟨_, _, ⟨_, _, ⟨_, _, ⟨_, _, ⟨_, _, ⟨_, _, ⟨_, _, ⟨_, _, ⟨path, hpath, rfl⟩,
      hline, rfl⟩, hcolumn, rfl⟩, hendLine, rfl⟩, hendColumn, rfl⟩, hseverity, rfl⟩, ⟨hruleId, hwhole⟩, rfl⟩,
      hmessage, rfl⟩, hsource, rfl⟩, hfix, rfl⟩, habout, rfl⟩ := hparts
    rw [Parts.finish_eq_ok] at hfinish
    rw [hpath, hline, hcolumn, hendLine, hendColumn, hseverity, ← hruleId, hmessage, hsource, hfix,
      habout, eq_true hwhole, and_true]
    simpa only [Int.natCast_inj] using hfinish
  · obtain ⟨path, ⟨line, column, endLine, endColumn, hline, hcolumn, hendColumn, hordered⟩, severity,
      ruleId, message, source, fix, about, hpath, hrule, torn⟩ := i
    obtain ⟨dpath, dline, dcolumn, dendLine, dendColumn, _, _, _, _, _, _, _, _⟩ := d
    rintro ⟨rfl, rfl, rfl, rfl, rfl, rfl, rfl, rfl, rfl, rfl, rfl, rfl, rfl⟩
    have hendLine : 1 ≤ endLine := by omega
    have hcheckPath : checkPath (.text path) = .ok ⟨path, hpath⟩ := checkPath_eq_ok.2 rfl
    have hcheckLine : Check.atLeast 1 (.int line) = .ok ⟨line, hline⟩ :=
      Check.atLeast_int_eq_ok.2 rfl
    have hcheckColumn : Check.atLeast 1 (.int column) = .ok ⟨column, hcolumn⟩ :=
      Check.atLeast_int_eq_ok.2 rfl
    have hcheckEndLine : Check.atLeast 1 (.int endLine) = .ok ⟨endLine, hendLine⟩ :=
      Check.atLeast_int_eq_ok.2 rfl
    have hcheckEndColumn : Check.atLeast 1 (.int endColumn) = .ok ⟨endColumn, hendColumn⟩ :=
      Check.atLeast_int_eq_ok.2 rfl
    have hcheckRule : Check.someText (.text ruleId) = .ok ⟨ruleId, hrule⟩ :=
      Check.someText_eq_ok.2 rfl
    refine ⟨⟨⟨path, hpath⟩, ⟨line, hline⟩, ⟨column, hcolumn⟩, ⟨endLine, hendLine⟩,
      ⟨endColumn, hendColumn⟩, severity, ⟨ruleId, hrule⟩, message, source, fix, about⟩, ?_,
      Parts.finish_eq_ok.2 ⟨rfl, rfl, rfl, rfl, rfl, rfl, rfl, rfl, rfl, rfl, rfl, rfl⟩⟩
    dsimp only [Draft.rule]
    rw [hcheckPath, hcheckLine, hcheckColumn, hcheckEndLine, hcheckEndColumn, hcheckRule]
    rfl

end Issue
end LintMerge
