/-
# What compaction leaves of a value

Compaction drops the entries of tables that are null. Where keys occur once, an entry is
found in what is left exactly when it was there and not null
(`lookup_compactedEntries`). Of a value in which only entries of tables are null (`Wire`),
nothing null is left at any depth, and what is left can be written as a document.
-/

import LintMerge.Proofs.Json.Documents

namespace LintMerge
namespace Value

/-- A value is another or a part of it, at whatever depth. -/
inductive Occurs (p : Value) : Value → Prop where
  | whole : Occurs p p
  | item {v : Value} {vs : List Value} (hv : v ∈ vs) (hp : Occurs p v) : Occurs p (.list vs)
  | entry {e : String × Value} {es : List (String × Value)} (he : e ∈ es) (hp : Occurs p e.2) :
      Occurs p (.table es)

/-- The entry of a key, if the value is a table that has one. -/
def get? (v : Value) (key : String) : Option Value :=
  match v with
  | table es => lookup key es
  | _ => none

theorem bool_ne_null {b : Bool} : bool b ≠ null := Value.noConfusion

theorem text_ne_null {s : String} : text s ≠ null := Value.noConfusion

theorem ofNat_ne_null {n : Nat} : ofNat n ≠ null := Value.noConfusion

theorem list_ne_null {vs : List Value} : list vs ≠ null := Value.noConfusion

theorem table_ne_null {es : List (String × Value)} : table es ≠ null := Value.noConfusion

/-- What compaction leaves of an entry. -/
def present? : Value → Option Value
  | null => none
  | v => some v.compacted

theorem present?_of_ne {v : Value} (hv : v ≠ .null) : present? v = some v.compacted := by
  cases v with
  | null => exact absurd rfl hv
  | _ => rfl

theorem compactedItems_eq_map (vs : List Value) : compactedItems vs = vs.map compacted := by
  induction vs with
  | nil => rfl
  | cons v vs ih => rw [compactedItems, ih, List.map_cons]

/-- The entries that are left are those that are not null, compacted. -/
theorem compactedEntries_eq_filterMap (es : List (String × Value)) :
    compactedEntries es = es.filterMap fun e => (present? e.2).map (e.1, ·) := by
  induction es with
  | nil => rfl
  | cons e es ih =>
    obtain ⟨k, v⟩ := e
    cases v with
    | null => exact ih
    | _ => exact congrArg (_ :: ·) ih

/-- Compaction adds no keys. -/
theorem keys_compactedEntries (es : List (String × Value)) :
    ((compactedEntries es).map (·.1)).Sublist (es.map (·.1)) := by
  induction es with
  | nil => exact List.Sublist.refl []
  | cons e es ih =>
    obtain ⟨k, v⟩ := e
    cases v with
    | null => exact .cons k ih
    | _ => exact .cons_cons k ih

/-- An entry that is left comes from one that is not null. -/
theorem mem_compactedEntries {es : List (String × Value)} {e : String × Value} :
    e ∈ compactedEntries es ↔ ∃ v, (e.1, v) ∈ es ∧ v ≠ .null ∧ e.2 = v.compacted := by
  rw [compactedEntries_eq_filterMap, List.mem_filterMap]
  constructor
  · rintro ⟨⟨k, v⟩, hmem, h⟩
    obtain ⟨w, hw, rfl⟩ := Option.map_eq_some_iff.1 h
    have hne : v ≠ .null := by
      rintro rfl
      cases hw
    rw [present?_of_ne hne] at hw
    exact ⟨v, hmem, hne, (Option.some.inj hw).symm⟩
  · rintro ⟨v, hmem, hne, he⟩
    refine ⟨(e.1, v), hmem, ?_⟩
    rw [present?_of_ne hne, Option.map_some, ← he]

theorem lookup_eq_none {key : String} {es : List (String × Value)} (h : key ∉ es.map (·.1)) :
    lookup key es = none := by
  induction es with
  | nil => rfl
  | cons e es ih =>
    rw [List.map_cons, List.mem_cons, not_or] at h
    rw [lookup, if_neg (Ne.symm h.1), ih h.2]

/-- **What is found after compaction**: what was there and not null. -/
theorem lookup_compactedEntries {es : List (String × Value)} (hkeys : (es.map (·.1)).Nodup)
    (key : String) : lookup key (compactedEntries es) = (lookup key es).bind present? := by
  induction es with
  | nil => rfl
  | cons e es ih =>
    obtain ⟨k, v⟩ := e
    rw [List.map_cons, List.nodup_cons] at hkeys
    have hrest := ih hkeys.2
    by_cases hk : k = key
    · subst hk
      have hnone : lookup k (compactedEntries es) = none :=
        lookup_eq_none fun hmem => hkeys.1 ((keys_compactedEntries es).mem hmem)
      rw [lookup, if_pos rfl, Option.bind_some]
      cases v with
      | null => exact hnone
      | _ => exact if_pos rfl
    · rw [lookup, if_neg hk, ← hrest]
      cases v with
      | null => rfl
      | _ => exact if_neg hk

/-- A value as records are before they are written: null stands for what a record lacks, and only
entries of tables are null. It can be written where `room` more containers may be opened. -/
inductive Wire : Nat → Value → Prop where
  | null {room : Nat} : Wire room .null
  | bool {room : Nat} {b : Bool} : Wire room (.bool b)
  | int {room : Nat} {n : Int} (hn : (toString n).length ≤ Text.maxDigits) : Wire room (.int n)
  | text {room : Nat} {s : String} : Wire room (.text s)
  | list {room : Nat} {vs : List Value} (items : ∀ v ∈ vs, Wire room v) (present : ∀ v ∈ vs, v ≠ .null) :
      Wire (room + 1) (.list vs)
  | table {room : Nat} {es : List (String × Value)} (keys : (es.map (·.1)).Nodup)
      (values : ∀ e ∈ es, Wire room e.2) : Wire (room + 1) (.table es)

variable {room : Nat} {v : Value}

/-- **Nothing is null after compaction**, at whatever depth. -/
theorem Wire.not_occurs_null (hv : Wire room v) (hne : v ≠ .null) : ¬ Occurs .null v.compacted := by
  induction hv with
  | null => exact absurd rfl hne
  | bool => exact fun h => nomatch h
  | int => exact fun h => nomatch h
  | text => exact fun h => nomatch h
  | list items present ih =>
    rw [compacted, compactedItems_eq_map]
    intro h
    cases h with
    | item hw hp =>
      obtain ⟨v, hmem, rfl⟩ := List.mem_map.1 hw
      exact ih v hmem (present v hmem) hp
  | table keys values ih =>
    rw [compacted]
    intro h
    cases h with
    | entry he hp =>
      obtain ⟨v, hmem, hne', heq⟩ := mem_compactedEntries.1 he
      rw [heq] at hp
      exact ih _ hmem hne' hp

/-- **What is left can be written** so that it can be read again. -/
theorem Wire.writable_compacted (hv : Wire room v) : Json.Writable room v.compacted := by
  induction hv with
  | null => exact .null
  | bool => exact .bool
  | int hn => exact .int hn
  | text => exact .text
  | @list room vs items _ ih =>
    rw [compacted, compactedItems_eq_map]
    refine .list (.inr (Nat.succ_pos room)) fun w hw => ?_
    obtain ⟨v, hmem, rfl⟩ := List.mem_map.1 hw
    exact ih v hmem
  | @table room es keys values ih =>
    rw [compacted]
    refine .table (.inr (Nat.succ_pos room)) (keys.sublist (keys_compactedEntries es)) fun e he => ?_
    obtain ⟨v, hmem, -, heq⟩ := mem_compactedEntries.1 he
    rw [heq]
    exact ih _ hmem

end Value
end LintMerge
