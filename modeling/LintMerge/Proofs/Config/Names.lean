/-
# Entries with keys that are read as the same

In the keys of a configuration a dash is read as an underscore, so that two keys may be read as
the same. An entry then counts if no later entry is read under its key (`Config.Standing`): what is
read are the entries that count (`Config.mem_unifyNames_iff`), each under its own key, and the
others leave no trace. Where no two keys are read as the same all entries count, in their order
(`Config.unifyNames_of_distinct`).
-/

import Mathlib.Data.List.Induction
import Mathlib.Data.List.Nodup
import LintMerge.Config.Basic

namespace LintMerge

namespace Value

variable {key : String} {v : Value} {es : List (String × Value)} {e : String × Value}

/-- Setting a key puts its entry in the place of those that the key has. -/
theorem mem_insert_iff (hkeys : (es.map (·.1)).Nodup) :
    e ∈ insert key v es ↔ e = (key, v) ∨ e ∈ es ∧ e.1 ≠ key := by
  induction es with
  | nil => simp [insert]
  | cons head rest ih =>
    rw [List.map_cons, List.nodup_cons] at hkeys
    rw [insert]
    split
    · next hkey =>
      have hrest : e ∈ rest → e.1 ≠ key := fun he h =>
        hkeys.1 (hkey.trans h.symm ▸ List.mem_map_of_mem he)
      rw [List.mem_cons, List.mem_cons]
      refine or_congr_right ⟨fun he => ⟨.inr he, hrest he⟩, ?_⟩
      rintro ⟨rfl | he, hne⟩
      · exact absurd hkey hne
      · exact he
    · next hkey =>
      rw [List.mem_cons, List.mem_cons, ih hkeys.2]
      constructor
      · rintro (rfl | rfl | ⟨he, hne⟩)
        · exact .inr ⟨.inl rfl, hkey⟩
        · exact .inl rfl
        · exact .inr ⟨.inr he, hne⟩
      · rintro (rfl | ⟨rfl | he, hne⟩)
        · exact .inr (.inl rfl)
        · exact .inl rfl
        · exact .inr (.inr ⟨he, hne⟩)

/-- Setting a key adds no other key. -/
theorem nodup_keys_insert (hkeys : (es.map (·.1)).Nodup) :
    ((insert key v es).map (·.1)).Nodup := by
  induction es with
  | nil => exact List.nodup_singleton key
  | cons head rest ih =>
    have hparts := List.nodup_cons.1 hkeys
    rw [insert]
    split
    · next hkey =>
      subst hkey
      exact hkeys
    · next hkey =>
      refine List.nodup_cons.2 ⟨fun hmem => ?_, ih hparts.2⟩
      obtain ⟨e, he, hname⟩ := List.mem_map.1 hmem
      rcases (mem_insert_iff hparts.2).1 he with rfl | ⟨he, -⟩
      · exact hkey hname.symm
      · exact hparts.1 (hname ▸ List.mem_map_of_mem he)

/-- Where keys occur once, the value of a key is that of its entry. -/
theorem lookup_eq_some_iff (hkeys : (es.map (·.1)).Nodup) : lookup key es = some v ↔ (key, v) ∈ es := by
  induction es with
  | nil => simp [lookup]
  | cons head rest ih =>
    obtain ⟨k, w⟩ := head
    have hparts := List.nodup_cons.1 hkeys
    rw [lookup, List.mem_cons]
    split
    · next hkey =>
      subst hkey
      have hrest : (k, v) ∉ rest := fun h => hparts.1 (List.mem_map.2 ⟨(k, v), h, rfl⟩)
      rw [or_iff_left hrest, Option.some.injEq, Prod.mk.injEq, eq_comm, and_iff_right rfl]
    · next hkey =>
      have hhead : (key, v) ≠ (k, w) := fun h => hkey (congrArg Prod.fst h).symm
      rw [or_iff_right hhead, ih hparts.2]

end Value

namespace Config

variable {es : List (String × Value)} {e : String × Value}

/-- What a key is read as. -/
def unified (key : String) : String := key.map fun c => if c = '-' then '_' else c

/-- An entry that counts: no later one has a key that is read as the same. -/
def Standing (es : List (String × Value)) (e : String × Value) : Prop :=
  ∃ front back, es = front ++ e :: back ∧ ∀ e' ∈ back, unified e'.1 ≠ unified e.1

/-- No two keys are read as the same. -/
def Distinct (es : List (String × Value)) : Prop := (es.map fun e => unified e.1).Nodup

theorem Standing.mem (h : Standing es e) : e ∈ es := by
  obtain ⟨front, back, rfl, -⟩ := h
  exact List.mem_append_right front List.mem_cons_self

/-- The last entry counts, and each other one that counted before it and is read under another
key. -/
theorem standing_concat_iff {last : String × Value} : Standing (es ++ [last]) e ↔
    e = last ∨ Standing es e ∧ unified e.1 ≠ unified last.1 := by
  constructor
  · rintro ⟨front, back, hes, hback⟩
    rcases List.eq_nil_or_concat back with rfl | ⟨more, last', rfl⟩
    · exact .inl (List.singleton_inj.1 (List.append_inj' hes rfl).2).symm
    · rw [List.concat_eq_append, ← List.cons_append, ← List.append_assoc] at hes
      obtain ⟨rfl, hlast⟩ := List.append_inj' hes rfl
      rw [List.concat_eq_append, List.forall_mem_append] at hback
      rw [List.singleton_inj.1 hlast]
      exact .inr ⟨⟨front, more, rfl, hback.1⟩, (hback.2 _ (List.mem_singleton_self _)).symm⟩
  · rintro (rfl | ⟨⟨front, back, rfl, hback⟩, hlast⟩)
    · exact ⟨es, [], rfl, List.forall_mem_nil _⟩
    · refine ⟨front, back ++ [last], by rw [List.append_assoc, List.cons_append], ?_⟩
      exact List.forall_mem_append.2 ⟨hback, List.forall_mem_singleton.2 hlast.symm⟩

/-- Under each key that is there, an entry counts. -/
theorem exists_standing (he : e ∈ es) : ∃ e', Standing es e' ∧ unified e'.1 = unified e.1 := by
  induction es using List.reverseRecOn with
  | nil => cases he
  | append_singleton es last ih =>
    by_cases hlast : unified last.1 = unified e.1
    · exact ⟨last, standing_concat_iff.2 (.inl rfl), hlast⟩
    · have hmem : e ∈ es := by
        rcases List.mem_append.1 he with h | h
        · exact h
        · exact absurd (List.mem_singleton.1 h ▸ rfl) hlast
      obtain ⟨e', hstanding, hkey⟩ := ih hmem
      exact ⟨e', standing_concat_iff.2 (.inr ⟨hstanding, fun h => hlast (h.symm.trans hkey)⟩), hkey⟩

theorem unifyNames_concat (es : List (String × Value)) (last : String × Value) :
    unifyNames (es ++ [last]) = Value.insert (unified last.1) last.2 (unifyNames es) := by
  rw [unifyNames, List.foldl_append]
  rfl

theorem nodup_keys_unifyNames (es : List (String × Value)) : ((unifyNames es).map (·.1)).Nodup := by
  induction es using List.reverseRecOn with
  | nil => exact List.nodup_nil
  | append_singleton es last ih =>
    rw [unifyNames_concat]
    exact Value.nodup_keys_insert ih

/-- **What is read are the entries that count**, each under what its key is read as. -/
theorem mem_unifyNames_iff {e' : String × Value} :
    e' ∈ unifyNames es ↔ ∃ e, Standing es e ∧ e' = (unified e.1, e.2) := by
  induction es using List.reverseRecOn with
  | nil =>
    refine ⟨fun h => (by cases h), ?_⟩
    rintro ⟨e, hstanding, -⟩
    cases hstanding.mem
  | append_singleton es last ih =>
    rw [unifyNames_concat, Value.mem_insert_iff (nodup_keys_unifyNames es), ih]
    constructor
    · rintro (rfl | ⟨⟨e, hstanding, rfl⟩, hne⟩)
      · exact ⟨last, standing_concat_iff.2 (.inl rfl), rfl⟩
      · exact ⟨e, standing_concat_iff.2 (.inr ⟨hstanding, hne⟩), rfl⟩
    · rintro ⟨e, hstanding, rfl⟩
      rcases standing_concat_iff.1 hstanding with rfl | ⟨hstanding, hne⟩
      · exact .inl rfl
      · exact .inr ⟨⟨e, hstanding, rfl⟩, hne⟩

theorem lookup_unifyNames_iff {key : String} {v : Value} :
    Value.lookup key (unifyNames es) = some v ↔ ∃ e, Standing es e ∧ unified e.1 = key ∧ e.2 = v := by
  rw [Value.lookup_eq_some_iff (nodup_keys_unifyNames es), mem_unifyNames_iff]
  simp only [Prod.mk.injEq, eq_comm]

/-- Where no two keys are read as the same the entries are read in their order. -/
theorem unifyNames_of_distinct (h : Distinct es) : unifyNames es = es.map fun e => (unified e.1, e.2) := by
  induction es using List.reverseRecOn with
  | nil => rfl
  | append_singleton es last ih =>
    rw [Distinct, List.map_append, List.nodup_append] at h
    obtain ⟨hes, -, hdisjoint⟩ := h
    have hnew : unified last.1 ∉ (unifyNames es).map (·.1) := by
      rw [ih hes, List.map_map]
      exact fun hmem => hdisjoint _ hmem _ (List.mem_singleton_self _) rfl
    rw [unifyNames_concat, Value.insert_of_not_mem hnew, ih hes, List.map_append]
    rfl

/-- Distinct names that are read as they are stay as they are. -/
theorem unifyNames_eq_self (hnames : ∀ e ∈ es, unified e.1 = e.1) (hkeys : (es.map (·.1)).Nodup) :
    unifyNames es = es := by
  have hdistinct : Distinct es := by
    rw [Distinct, List.map_congr_left hnames]
    exact hkeys
  have hsame : ∀ e ∈ es, (unified e.1, e.2) = e := fun e he => by rw [hnames e he]
  rw [unifyNames_of_distinct hdistinct, List.map_congr_left hsame, List.map_id']

theorem standing_iff_mem (h : Distinct es) : Standing es e ↔ e ∈ es := by
  refine ⟨Standing.mem, fun he => ?_⟩
  obtain ⟨front, back, rfl⟩ := List.append_of_mem he
  refine ⟨front, back, rfl, fun e' he' hkey => ?_⟩
  rw [Distinct, List.map_append, List.map_cons] at h
  have hback := (List.nodup_cons.1 (List.nodup_append.1 h).2.1).1
  exact hback (hkey ▸ List.mem_map_of_mem he')

end Config
end LintMerge
