/-
# Where characters start

A place between two characters of a text is told by the number of characters before it, by the
number of octets that these have in UTF-8, or by a line and a column. The position of a place
counts the line feeds before it and the characters since the last of them (`Position.behind`), and
of two places the later one has the later position, so a position tells its place
(`Position.behind_inj`).

The other two numbers differ by what characters have beyond their first octet. So the character
whose number is that of the octets before a place starts at the place only where the two agree:
when all characters before it are ASCII, or when the place is the end of the text, which is as far
as counting goes (`Text.Utf8.take_length_encode_iff`). ASCII text has one octet for each character,
and is read back from them (`Text.Utf8.decode_encode`).
-/

import Mathlib.Data.List.Induction
import LintMerge.Text.Position
import LintMerge.Text.Utf8

namespace LintMerge

namespace Text.Utf8

variable {before s : List Char}

/-- Whether all characters of a text are of one octet. -/
def IsAscii (s : List Char) : Prop := ∀ c ∈ s, c.toNat < 128

instance : Decidable (IsAscii s) := List.decidableBAll _ _

@[simp] theorem length_encode_nil : (encode []).length = 0 := rfl

@[simp] theorem length_encode_cons (c : Char) (s : List Char) :
    (encode (c :: s)).length = c.utf8Size + (encode s).length := by
  simp [encode]

/-- A character has one octet at least. -/
theorem length_le_length_encode (s : List Char) : s.length ≤ (encode s).length := by
  induction s with
  | nil => exact Nat.le_refl _
  | cons c s ih =>
    have hc := c.utf8Size_pos
    rw [length_encode_cons, List.length_cons]
    omega

/-- A text has an octet for each character exactly when all of them are ASCII. -/
theorem length_encode_eq_length_iff : (encode s).length = s.length ↔ IsAscii s := by
  induction s with
  | nil => simp [IsAscii]
  | cons c s ih =>
    have hc := c.utf8Size_pos
    have hs := length_le_length_encode s
    have hone : c.utf8Size = 1 ↔ c.toNat < 128 := by
      rw [Char.utf8Size_eq_one_iff, UInt32.le_iff_toNat_le]
      exact Nat.lt_succ_iff.symm
    rw [length_encode_cons, List.length_cons, IsAscii, List.forall_mem_cons, ← hone, ← IsAscii, ← ih]
    omega

/-- **Octets taken for characters.** As many characters as there are octets before a place are those
before it exactly when these are ASCII or are the whole text. -/
theorem take_length_encode_iff (h : before <+: s) :
    s.take (encode before).length = before ↔ IsAscii before ∨ before = s := by
  have hle := length_le_length_encode before
  have htake : before = s.take before.length := List.prefix_iff_eq_take.1 h
  constructor
  · intro heq
    have hlen := congrArg List.length heq
    rw [List.length_take] at hlen
    rcases Nat.lt_or_ge (encode before).length s.length with hlt | hge
    · left
      rw [← length_encode_eq_length_iff]
      omega
    · right
      rw [← heq, List.take_of_length_le hge]
  · rintro (hascii | rfl)
    · rw [length_encode_eq_length_iff.2 hascii, ← htake]
    · exact List.take_of_length_le hle

theorem encode_cons_of_lt {c : Char} (hc : c.toNat < 128) (s : List Char) :
    encode (c :: s) = c.val.toUInt8 :: encode s := by
  have hsize : c.utf8Size = 1 := by
    rw [Char.utf8Size_eq_one_iff, UInt32.le_iff_toNat_le]
    exact Nat.le_of_lt_succ hc
  rw [encode, List.flatMap_cons, String.utf8EncodeChar_eq_singleton hsize]
  rfl

theorem start_of_lt {c : Char} (hc : c.toNat < 128) : start c.val.toUInt8 = .whole c := by
  have hnat : c.val.toUInt8.toNat = c.toNat := by
    rw [UInt32.toNat_toUInt8]
    exact Nat.mod_eq_of_lt (Nat.lt_trans hc (by decide))
  rw [start, hnat, if_pos hc, Char.ofNat_toNat]

/-- **ASCII text is read back** from its octets. -/
theorem decode_encode {s : List Char} (h : IsAscii s) : decode (encode s) = .ok s := by
  suffices hfrom : ∀ offset, decodeFrom offset none (encode s) = .ok s from hfrom 0
  induction s with
  | nil => exact fun _ => rfl
  | cons c s ih =>
    intro offset
    obtain ⟨hc, hs⟩ := List.forall_mem_cons.1 h
    rw [encode_cons_of_lt hc, decodeFrom]
    simp only [start_of_lt hc]
    rw [ih hs]
    rfl

end Text.Utf8

namespace Position

variable {p q r : Position} {s t u : List Char}

/-- A position in an earlier line than another, or in the same and further to its start. -/
def Before (p q : Position) : Prop := p.line < q.line ∨ (p.line = q.line ∧ p.column < q.column)

theorem Before.trans (hpq : p.Before q) (hqr : q.Before r) : p.Before r := by
  unfold Before at *
  omega

theorem Before.ne (h : p.Before q) : p ≠ q := by
  rintro rfl
  unfold Before at h
  omega

theorem before_next (p : Position) (c : Char) : p.Before (p.next c) := by
  unfold Before next
  split
  · exact .inl (Nat.lt_succ_self _)
  · exact .inr ⟨rfl, Nat.lt_succ_self _⟩

/-- What comes after some characters has a later position. -/
theorem before_after (p : Position) (hs : s ≠ []) : p.Before (p.after s) := by
  induction s generalizing p with
  | nil => exact absurd rfl hs
  | cons c s ih =>
    rw [after_cons]
    cases s with
    | nil => exact before_next p c
    | cons c' s => exact (before_next p c).trans (ih _ (List.cons_ne_nil _ _))

/-- The position behind some characters: the line is one more than the line feeds among them, the
column one more than the characters since the last of these. -/
def behind (s : List Char) : Position where
  line := 1 + s.count '\n'
  column := 1 + (s.reverse.takeWhile (· ≠ '\n')).length

/-- Counting characters one by one leads to the position behind them. -/
theorem after_start (s : List Char) : start.after s = behind s := by
  induction s using List.reverseRec with
  | nil => rfl
  | append_singleton s c ih =>
    rw [after_append, ih, after_cons, after_nil, next]
    split
    · next hc => simp [behind, hc, Nat.add_assoc]
    · next hc => simp [behind, hc, Nat.add_assoc, Nat.add_comm 1]

theorem ofOffset_eq (s : List Char) (offset : Nat) : ofOffset s offset = behind (s.take offset) :=
  after_start _

theorem behind_append (s t : List Char) : behind (s ++ t) = (behind s).after t := by
  rw [← after_start, after_append, after_start]

/-- The position behind a text is not before the one behind a start of it. -/
theorem behind_le_behind (h : s <+: t) :
    (behind s).line < (behind t).line ∨
      (behind s).line = (behind t).line ∧ (behind s).column ≤ (behind t).column := by
  obtain ⟨c, rfl⟩ := h
  rw [behind_append]
  rcases eq_or_ne c [] with rfl | hc
  · exact .inr ⟨rfl, Nat.le_refl _⟩
  · exact ((behind s).before_after hc).imp_right (And.imp_right Nat.le_of_lt)

/-- **A position tells its place**: of two starts of a text, the longer one ends later. -/
theorem behind_inj (hs : s <+: u) (ht : t <+: u) : behind s = behind t ↔ s = t := by
  have hlater {a b : List Char} (hab : a <+: b) (heq : behind a = behind b) : a = b := by
    obtain ⟨c, rfl⟩ := hab
    by_contra hne
    have hc : c ≠ [] := fun hc => hne (by rw [hc, List.append_nil])
    exact ((behind a).before_after hc).ne (heq.trans (behind_append a c))
  constructor
  · intro heq
    rcases List.prefix_or_prefix_of_prefix hs ht with h | h
    · exact hlater h heq
    · exact (hlater h heq.symm).symm
  · rintro rfl
    rfl

/-- The position behind as many characters as there are octets in a start of a text is the one
behind that start exactly when the start is ASCII or the whole text. -/
theorem behind_take_length_encode_iff (h : s <+: t) :
    behind (t.take (Text.Utf8.encode s).length) = behind s ↔ Text.Utf8.IsAscii s ∨ s = t := by
  rw [behind_inj (List.take_prefix _ _) h, Text.Utf8.take_length_encode_iff h]

end Position
end LintMerge
