/-
# Stamps are read as they were written

A stamp that lies in the calendar (`Stamp.InCalendar`) is written with as many digits for
each of its numbers as are read. So the text of a stamp is read as the stamp
(`Stamp.ofText_text`), with or without a fraction of a second, and in UTC or at an offset
of whole minutes.
-/

import LintMerge.Proofs.Json.Tokens
import LintMerge.Time.Stamp

namespace LintMerge
namespace Stamp

/-- A stamp is a point in time as a calendar and a clock have them. -/
structure InCalendar (t : Stamp) : Prop where
  year : t.year < 10000
  one_le_day : 1 ≤ t.day
  day : t.day ≤ daysIn t.year t.month
  hour : t.hour ≤ 23
  minute : t.minute ≤ 59
  second : t.second ≤ 59
  micro : t.micro < 1000000
  /-- the offset is one of whole minutes, and less than a day -/
  offset : ∀ e, t.offset = some e → e.natAbs < 86400 ∧ e.natAbs % 60 = 0

/-- Some digits in a row, with the number that they stand for. -/
structure IsRow (width n : Nat) (ds : List Char) : Prop where
  length : ds.length = width
  digits : ∀ c ∈ ds, Text.isAsciiDigit c = true
  number : number? ds = some n

/-- **Padding** keeps a number, and gives it as many digits as it is to have if it has no more. -/
theorem isRow_padded {width n : Nat} (hlength : (Nat.toDigits 10 n).length ≤ width) :
    IsRow width n (padded width n) := by
  have hdigits : ∀ c ∈ padded width n, Text.isAsciiDigit c = true := by
    intro c hc
    rcases List.mem_append.1 hc with hc | hc
    · rw [List.eq_of_mem_replicate hc]
      rfl
    · exact Text.isAsciiDigit_of_mem_toDigits hc
  refine ⟨?_, hdigits, ?_⟩
  · simp only [padded, List.length_append, List.length_replicate]
    omega
  · rw [number?, if_pos (List.all_eq_true.2 hdigits), Text.ofDigits_map]
    dsimp only [padded]
    rw [Nat.ofDigitChars_append, Nat.ofDigitChars_replicate_zero, Nat.mul_zero,
      Nat.ofDigitChars_ten_toDigits]

/-- A number of two digits. -/
theorem exists_padded_two {n : Nat} (hn : n < 100) :
    ∃ a b, padded 2 n = [a, b] ∧ number? [a, b] = some n := by
  have hrow : IsRow 2 n (padded 2 n) :=
    isRow_padded ((Nat.length_toDigits_le_iff (by decide) (by decide)).2 hn)
  match hpadded : padded 2 n, hrow.length with
  | [a, b], _ => exact ⟨a, b, rfl, hpadded ▸ hrow.number⟩

/-- A number of four digits. -/
theorem exists_padded_four {n : Nat} (hn : n < 10000) :
    ∃ a b c d, padded 4 n = [a, b, c, d] ∧ number? [a, b, c, d] = some n := by
  have hrow : IsRow 4 n (padded 4 n) :=
    isRow_padded ((Nat.length_toDigits_le_iff (by decide) (by decide)).2 hn)
  match hpadded : padded 4 n, hrow.length with
  | [a, b, c, d], _ => exact ⟨a, b, c, d, rfl, hpadded ▸ hrow.number⟩

/-- A month has no more than 31 days, and there are 12 of them. -/
theorem daysIn_le (year month : Nat) : daysIn year month ≤ 31 := by
  unfold daysIn
  split
  · split <;> decide
  · split
    · decide
    · split <;> decide

theorem month_le {year month : Nat} (h : daysIn year month ≠ 0) : month ≤ 12 := by
  unfold daysIn at h
  split at h
  · omega
  · split at h
    · next hm => simp at hm; omega
    · split at h
      · next hm => exact hm.2
      · exact absurd rfl h

/-- The date of a stamp is read, up to what follows it. -/
theorem date_text {t : Stamp} (ht : t.InCalendar) (rest : List Char) :
    date (padded 4 t.year ++ '-' :: padded 2 t.month ++ '-' :: padded 2 t.day ++ rest) =
      .ok (t.year, t.month, t.day, rest) := by
  have hdays : daysIn t.year t.month ≠ 0 := by
    have hfrom := ht.one_le_day
    have hto := ht.day
    omega
  have hmonth := month_le hdays
  have hday := Nat.le_trans ht.day (daysIn_le t.year t.month)
  obtain ⟨y₁, y₂, y₃, y₄, hyear, hy⟩ := exists_padded_four ht.year
  obtain ⟨m₁, m₂, hmonths, hm⟩ := exists_padded_two (n := t.month) (by omega)
  obtain ⟨d₁, d₂, hdays', hd⟩ := exists_padded_two (n := t.day) (by omega)
  rw [hyear, hmonths, hdays']
  simp only [List.cons_append, List.nil_append, date, hy, hm, hd, ne_eq, not_true_eq_false, if_false]
  rw [if_neg hdays, if_neg]
  have hfrom := ht.one_le_day
  have hto := ht.day
  omega

/-- The fraction of a second as it is written. -/
def fractionText (micro : Nat) : List Char := if micro = 0 then [] else '.' :: padded 6 micro

/-- The time of day of a stamp is read, up to what follows it. -/
theorem clock?_text {t : Stamp} (ht : t.InCalendar) (rest : List Char)
    (hrest : ∀ c ∈ rest.head?, c ≠ '.' ∧ c ≠ ',' ∧ Text.isAsciiDigit c = false) :
    clock? (padded 2 t.hour ++ ':' :: padded 2 t.minute ++ ':' :: padded 2 t.second ++
        fractionText t.micro ++ rest) =
      some (t.hour, t.minute, t.second, t.micro, rest) := by
  have hhour := ht.hour
  have hminute := ht.minute
  have hsecond := ht.second
  obtain ⟨h₁, h₂, hhours, hh⟩ := exists_padded_two (n := t.hour) (by omega)
  obtain ⟨m₁, m₂, hminutes, hm⟩ := exists_padded_two (n := t.minute) (by omega)
  obtain ⟨s₁, s₂, hseconds, hs⟩ := exists_padded_two (n := t.second) (by omega)
  rw [hhours, hminutes, hseconds, fractionText]
  have hclock : ¬ (23 < t.hour ∨ 59 < t.minute) := by omega
  have hwithin : ¬ 59 < t.second := by omega
  by_cases hmicro : t.micro = 0
  · rw [if_pos hmicro]
    simp only [List.cons_append, List.nil_append, clock?, hh, hm, hs, Option.bind_eq_bind,
      Option.bind_some, if_neg hclock, if_neg hwithin]
    cases rest with
    | nil => rw [hmicro]; rfl
    | cons c more =>
      obtain ⟨hpoint, hcomma, -⟩ := hrest c rfl
      have hnot : ¬ (c = '.' ∨ c = ',') := not_or.2 ⟨hpoint, hcomma⟩
      dsimp only
      rw [hmicro, if_neg hnot]
      rfl
  · have hrow : IsRow 6 t.micro (padded 6 t.micro) :=
      isRow_padded ((Nat.length_toDigits_le_iff (by decide) (by decide)).2 ht.micro)
    have hnone : rest.takeWhile Text.isAsciiDigit = [] := by
      cases rest with
      | nil => rfl
      | cons c more =>
        exact List.takeWhile_cons_of_neg (by rw [(hrest c rfl).2.2]; exact Bool.false_ne_true)
    have htake : (padded 6 t.micro ++ rest).takeWhile Text.isAsciiDigit = padded 6 t.micro := by
      rw [List.takeWhile_append_of_pos hrow.digits, hnone, List.append_nil]
    have hsix : (padded 6 t.micro).take 6 = padded 6 t.micro :=
      List.take_of_length_le (Nat.le_of_eq hrow.length)
    have hdrop : (padded 6 t.micro ++ rest).drop 6 = rest := List.drop_left' hrow.length
    have hne : (padded 6 t.micro).isEmpty = false := by
      rw [List.isEmpty_eq_false_iff]
      exact List.ne_nil_of_length_eq_add_one hrow.length
    rw [if_neg hmicro]
    simp only [List.cons_append, List.nil_append, clock?, hh, hm, hs, Option.bind_eq_bind,
      Option.bind_some, if_neg hclock, if_neg hwithin, htake, hsix, hrow.length, Nat.sub_self,
      List.replicate_zero, List.append_nil, hrow.number, hdrop, hne, true_or, if_true,
      if_false, Bool.false_eq_true]
    rfl

/-- The offset of a stamp is read. -/
theorem offset?_text {t : Stamp} (ht : t.InCalendar) : offset? (offsetText t.offset) = some t.offset := by
  cases ho : t.offset with
  | none => rfl
  | some e =>
    obtain ⟨hday, hminutes⟩ := ht.offset e ho
    rw [offsetText]
    split
    · next h => rw [h]; rfl
    · obtain ⟨h₁, h₂, hhours, hh⟩ := exists_padded_two (n := e.natAbs / 3600) (by omega)
      obtain ⟨m₁, m₂, hrest, hm⟩ := exists_padded_two (n := e.natAbs / 60 % 60) (by omega)
      have hwithin : ¬ (59 < e.natAbs / 60 % 60 ∨ 23 < e.natAbs / 3600) := by omega
      rw [hhours, hrest]
      split
      · simp only [List.cons_append, List.nil_append, offset?, Option.bind_some, hh, hm,
          Option.bind_eq_bind, if_neg hwithin]
        congr 2
        omega
      · simp only [List.cons_append, List.nil_append, offset?, Option.bind_some, hh, hm,
          Option.bind_eq_bind, if_neg hwithin]
        congr 2
        omega

/-- **Stamps round trip.** The text of a stamp in the calendar is read as the stamp. -/
theorem ofText_text {t : Stamp} (ht : t.InCalendar) : ofText t.text = .ok t := by
  have hoffset : ∀ c ∈ (offsetText t.offset).head?, c ≠ '.' ∧ c ≠ ',' ∧ Text.isAsciiDigit c = false := by
    cases t.offset with
    | none => exact fun _ h => absurd h (by simp [offsetText])
    | some e =>
      rw [offsetText]
      split
      · rintro _ ⟨⟩
        decide
      · split <;> (rintro _ ⟨⟩; decide)
  have htext : t.text = padded 4 t.year ++ '-' :: padded 2 t.month ++ '-' :: padded 2 t.day ++
      ('T' :: (padded 2 t.hour ++ ':' :: padded 2 t.minute ++ ':' :: padded 2 t.second ++
        fractionText t.micro ++ offsetText t.offset)) := by
    simp [text, fractionText]
  have hfull : full? t.text = some t := by
    rw [htext, full?, date_text ht]
    simp only [true_or, if_true, clock?_text ht _ hoffset, offset?_text ht, Option.bind_eq_bind,
      Option.bind_some]
    rfl
  rw [ofText, hfull]

end Stamp
end LintMerge
