/-
# Integers with too many digits

An integer of more than `Text.maxDigits` digits is not read, and this is no fault of the
document: it has a kind of its own. Here it is traced to the text. What each reader leaves
is an end of what it was given, so where a reader gives up for the digits of an integer, so
many digits stand in a row somewhere in the text (`Json.hasLongRow_of_document`).

The two facts are proved together (`Reads`), first of the readers of strings and numbers,
and then of values, lists and tables by induction on the fuel that they share.
-/

import Mathlib.Data.List.TakeWhile
import LintMerge.Json.Reader

namespace LintMerge

namespace Text

theorem digitValue?_of_isAsciiDigit {c : Char} (h : isAsciiDigit c = true) :
    digitValue? c = some (c.toNat - 48) := by
  rw [isAsciiDigit, Bool.and_eq_true, decide_eq_true_iff, decide_eq_true_iff] at h
  have hlow : 48 ≤ c.toNat := h.1
  have hhigh : c.toNat ≤ 57 := h.2
  simp only [digitValue?]
  rw [if_pos (by omega), if_pos ⟨hlow, hhigh⟩]

theorem isDigit_of_isAsciiDigit {c : Char} (h : isAsciiDigit c = true) : isDigit c = true := by
  rw [isDigit, digitValue?_of_isAsciiDigit h, Option.isSome_some]

/-- Somewhere in a text there are so many digits in a row, and more than an integer may have. -/
def HasLongRow (n : Nat) (s : List Char) : Prop :=
  maxDigits < n ∧ ∃ ds, ds <:+: s ∧ ds.length = n ∧ ∀ c ∈ ds, isDigit c = true

/-- A row of digits in a part of a text is one in the text. -/
theorem HasLongRow.mono {n : Nat} {s t : List Char} (h : HasLongRow n s) (hst : s <:+: t) :
    HasLongRow n t := by
  obtain ⟨hn, ds, hds, hlength, hdigits⟩ := h
  exact ⟨hn, ds, hds.trans hst, hlength, hdigits⟩

end Text

namespace Json

/-- What follows the white space is an end of the text. -/
theorem skip_suffix (s : List Char) : skip s <:+ s := List.dropWhile_suffix _

/-- The outcome of reading the start of a text: what is left is an end of it, and where an integer
has too many digits, they stand in the text. -/
structure Reads {α : Type} (s : List Char) (x : Except Fault (α × List Char)) : Prop where
  rest : ∀ {a : α} {rest : List Char}, x = .ok (a, rest) → rest <:+ s
  row : ∀ {n : Nat}, x = .error (.tooManyDigits n) → Text.HasLongRow n s

variable {α β : Type} {s t rest : List Char} {fuel : Nat}

theorem reads_ok {a : α} (h : rest <:+ s) : Reads s (.ok (a, rest)) where
  rest := by
    rintro _ _ ⟨⟩
    exact h
  row := nofun

theorem reads_malformed (cause : Cause) (remaining : Nat) :
    Reads s (.error (.malformed cause remaining) : Except Fault (α × List Char)) where
  rest := nofun
  row := nofun

theorem reads_refuse (cause : Cause) : Reads s (refuse cause t : Except Fault (α × List Char)) :=
  reads_malformed cause _

/-- What is read of an end of a text is read of the text. -/
theorem Reads.mono {x : Except Fault (α × List Char)} (h : Reads t x) (hts : t <:+ s) : Reads s x where
  rest hx := (h.rest hx).trans hts
  row hx := (h.row hx).mono hts.isInfix

/-- **Sequencing.** What goes on reads an end of the text. -/
theorem Reads.bind {x : Except Fault (α × List Char)} {f : α × List Char → Except Fault (β × List Char)}
    (hx : Reads s x) (hf : ∀ a rest, rest <:+ s → Reads s (f (a, rest))) : Reads s (x >>= f) := by
  cases x with
  | error e =>
    refine ⟨nofun, fun h => ?_⟩
    cases h
    exact hx.row rfl
  | ok read => exact hf _ _ (hx.rest rfl)

theorem suffix_of_fourHex? {n : Nat} (h : fourHex? s = some (n, rest)) : rest <:+ s := by
  unfold fourHex? at h
  split at h
  · next a b c d more =>
    simp only [Option.bind_eq_bind, Option.bind_eq_some_iff, Option.pure_def, Option.some.injEq,
      Prod.mk.injEq] at h
    obtain ⟨_, _, _, _, _, _, _, _, -, rfl⟩ := h
    exact List.suffix_append [a, b, c, d] more
  · cases h

theorem reads_codePoint (s : List Char) : Reads s (codePoint s) := by
  unfold codePoint
  dsimp only
  split
  · exact reads_malformed _ _
  · split
    · exact reads_malformed _ _
    · next high rest hhigh =>
      have hrest := suffix_of_fourHex? hhigh
      split
      · split
        · next after =>
          split
          · exact reads_ok hrest
          · split
            · exact reads_malformed _ _
            · next low rest' hlow =>
              have hafter : after <:+ s := (List.suffix_append ['\\', 'u'] after).trans hrest
              split
              · exact reads_ok ((suffix_of_fourHex? hlow).trans hafter)
              · exact reads_ok hrest
        · exact reads_ok hrest
      · exact reads_ok hrest

theorem reads_escape (opening : Nat) (s : List Char) : Reads s (escape opening s) := by
  unfold escape
  split
  · exact reads_malformed _ _
  · exact reads_ok (List.suffix_cons _ _)
  · exact reads_ok (List.suffix_cons _ _)
  · exact reads_ok (List.suffix_cons _ _)
  · exact reads_ok (List.suffix_cons _ _)
  · exact reads_ok (List.suffix_cons _ _)
  · exact reads_ok (List.suffix_cons _ _)
  · exact reads_ok (List.suffix_cons _ _)
  · exact reads_ok (List.suffix_cons _ _)
  · exact (reads_codePoint _).mono (List.suffix_cons _ _)
  · exact reads_malformed _ _

theorem reads_string (opening fuel : Nat) (done : List Glyph) (s : List Char) :
    Reads s (string opening fuel done s) := by
  induction fuel generalizing done s with
  | zero => exact reads_malformed _ _
  | succ fuel ih =>
    unfold string
    split
    · exact reads_malformed _ _
    · exact reads_ok (List.suffix_cons _ _)
    · next rest =>
      have hescape := reads_escape opening rest
      split
      · next e he =>
        refine ⟨nofun, fun h => ?_⟩
        cases h
        exact (hescape.row he).mono (List.suffix_cons _ _).isInfix
      · next c rest' hc =>
        exact (ih _ rest').mono ((hescape.rest hc).trans (List.suffix_cons _ _))
    · split
      · exact reads_refuse _
      · exact (ih _ _).mono (List.suffix_cons _ _)

theorem reads_quoted (s : List Char) : Reads s (quoted s) := reads_string _ _ _ s

theorem suffix_of_fraction? {ds : List Char} (h : fraction? s = some (ds, rest)) : rest <:+ s := by
  unfold fraction? at h
  split at h
  · dsimp only at h
    split at h
    · cases h
    · cases h
      exact (List.drop_suffix _ _).trans (List.suffix_cons _ _)
  · cases h

theorem suffix_powerSign (s : List Char) : (powerSign s).2 <:+ s := by
  unfold powerSign
  split
  · exact List.suffix_cons _ _
  · exact List.suffix_cons _ _
  · exact List.suffix_rfl

theorem suffix_of_exponent? {n : Int} (h : exponent? s = some (n, rest)) : rest <:+ s := by
  cases s with
  | nil => cases h
  | cons e more =>
    rw [exponent?] at h
    split at h
    · dsimp only at h
      split at h
      · cases h
      · cases h
        exact ((List.drop_suffix _ _).trans (suffix_powerSign more)).trans (List.suffix_cons _ _)
    · cases h

/-- **The whole part of a number** is all that is counted of it. -/
theorem reads_ofWhole (negative : Bool) (whole s : List Char)
    (hwhole : ∀ c ∈ whole, Text.isAsciiDigit c = true) :
    Reads (whole ++ s) (ofWhole negative whole s) := by
  have hs : s <:+ whole ++ s := List.suffix_append _ _
  have hfraction : ((fraction? s).map (·.2)).getD s <:+ s := by
    cases h : fraction? s with
    | none => exact List.suffix_rfl
    | some f => exact suffix_of_fraction? h
  have hpower : ((exponent? (((fraction? s).map (·.2)).getD s)).map (·.2)).getD
      (((fraction? s).map (·.2)).getD s) <:+ s := by
    refine List.IsSuffix.trans ?_ hfraction
    cases h : exponent? (((fraction? s).map (·.2)).getD s) with
    | none => exact List.suffix_rfl
    | some e => exact suffix_of_exponent? h
  rw [ofWhole]
  dsimp only
  split
  · split
    · next hlong =>
      refine ⟨nofun, fun h => ?_⟩
      cases h
      exact ⟨hlong, whole, (List.prefix_append _ _).isInfix, rfl,
        fun c hc => Text.isDigit_of_isAsciiDigit (hwhole c hc)⟩
    · exact reads_ok hs
  · exact reads_ok (hpower.trans hs)

theorem reads_magnitude (negative : Bool) (s : List Char) : Reads s (magnitude negative s) := by
  rw [magnitude]
  split
  · next hzero =>
    obtain ⟨rest, rfl⟩ := List.head?_eq_some_iff.1 hzero
    refine reads_ofWhole negative ['0'] rest fun c hc => ?_
    rw [List.mem_singleton.1 hc]
    rfl
  · have hreads := reads_ofWhole negative (digits s) (s.drop (digits s).length)
      fun c hc => List.mem_takeWhile_imp hc
    have hsplit : digits s ++ s.drop (digits s).length = s :=
      List.prefix_iff_eq_append.1 (List.takeWhile_prefix _)
    rwa [hsplit] at hreads

theorem reads_number (s : List Char) : Reads s (number s) := by
  unfold number
  split
  · next rest => exact reads_ok (List.suffix_append ['N', 'a', 'N'] rest)
  · next rest => exact reads_ok (List.suffix_append "Infinity".toList rest)
  · next rest => exact reads_ok (List.suffix_append "-Infinity".toList rest)
  · split
    · exact (reads_magnitude true _).mono (List.suffix_cons _ _)
    · exact reads_refuse _
  · split
    · exact reads_magnitude false _
    · exact reads_refuse _
  · exact reads_refuse _

/-- What is read with some fuel, be it a value or the rest of a list or a table. -/
structure ReadsAll (fuel : Nat) : Prop where
  value : ∀ s, Reads s (value fuel s)
  items : ∀ done s, Reads s (items fuel done s)
  members : ∀ done s, Reads s (members fuel done s)

theorem reads_value (hall : ReadsAll fuel) (s : List Char) : Reads s (value (fuel + 1) s) := by
  unfold value
  split
  · exact ((reads_quoted _).mono (List.suffix_cons _ _)).bind fun _ _ h => reads_ok h
  · next rest =>
    have hrest : skip rest <:+ '\x7b' :: rest := (skip_suffix rest).trans (List.suffix_cons _ _)
    split
    · next heq => exact reads_ok ((List.suffix_cons _ _).trans (heq ▸ hrest))
    · exact (hall.members _ _).mono hrest
  · next rest =>
    have hrest : skip rest <:+ '[' :: rest := (skip_suffix rest).trans (List.suffix_cons _ _)
    split
    · next heq => exact reads_ok ((List.suffix_cons _ _).trans (heq ▸ hrest))
    · exact (hall.items _ _).mono hrest
  · next rest => exact reads_ok (List.suffix_append "null".toList rest)
  · next rest => exact reads_ok (List.suffix_append "true".toList rest)
  · next rest => exact reads_ok (List.suffix_append "false".toList rest)
  · exact reads_number _

theorem reads_items (hall : ReadsAll fuel) (done : List Value) (s : List Char) :
    Reads s (items (fuel + 1) done s) := by
  rw [items]
  refine (hall.value s).bind fun v rest hrest => ?_
  have hskip : skip rest <:+ s := (skip_suffix rest).trans hrest
  dsimp only
  split
  · next heq => exact reads_ok ((List.suffix_cons _ _).trans (heq ▸ hskip))
  · next more heq =>
    exact (hall.items _ _).mono ((skip_suffix more).trans ((List.suffix_cons _ _).trans (heq ▸ hskip)))
  · exact reads_refuse _

theorem reads_members (hall : ReadsAll fuel) (done : List (String × Value)) (s : List Char) :
    Reads s (members (fuel + 1) done s) := by
  unfold members
  split
  · refine ((reads_quoted _).mono (List.suffix_cons _ _)).bind fun name rest hrest => ?_
    have hskip := (skip_suffix rest).trans hrest
    dsimp only
    split
    · next after heq =>
      have hafter := (skip_suffix after).trans ((List.suffix_cons _ _).trans (heq ▸ hskip))
      refine ((hall.value _).mono hafter).bind fun v rest' hrest' => ?_
      have hskip' := (skip_suffix rest').trans hrest'
      dsimp only
      split
      · next heq' => exact reads_ok ((List.suffix_cons _ _).trans (heq' ▸ hskip'))
      · next more heq' =>
        exact (hall.members _ _).mono
          ((skip_suffix more).trans ((List.suffix_cons _ _).trans (heq' ▸ hskip')))
      · exact reads_refuse _
    · exact reads_refuse _
  · exact reads_refuse _

theorem readsAll (fuel : Nat) : ReadsAll fuel := by
  induction fuel with
  | zero => exact ⟨fun _ => reads_refuse _, fun _ _ => reads_refuse _, fun _ _ => reads_refuse _⟩
  | succ fuel ih => exact ⟨reads_value ih, reads_items ih, reads_members ih⟩

/-- **A document of which an integer has too many digits** holds so many digits in a row. -/
theorem hasLongRow_of_document {n : Nat} (h : document s = .error (.tooManyDigits n)) :
    Text.HasLongRow n s := by
  unfold document at h
  split at h
  · cases h
  · dsimp only at h
    split at h
    · next he =>
      cases h
      exact (((readsAll _).value _).row he).mono (skip_suffix s).isInfix
    · split at h <;> cases h

/-- A number that is a row of too many ones is given up. -/
theorem magnitude_ones {n : Nat} (hn : Text.maxDigits < n) :
    magnitude false (List.replicate n '1') = .error (.tooManyDigits n) := by
  have hdigits : digits (List.replicate n '1') = List.replicate n '1' := by
    rw [digits, List.takeWhile_replicate]
    rfl
  have hhead : (List.replicate n '1').head? ≠ some '0' := by
    rw [List.head?_replicate]
    split <;> decide
  rw [magnitude, if_neg hhead, hdigits, List.length_replicate, List.drop_replicate, Nat.sub_self]
  simp [ofWhole, fraction?, exponent?, hn]

/-- So is the document that it makes up. -/
theorem document_ones {n : Nat} (hn : Text.maxDigits < n) :
    document (List.replicate n '1') = .error (.tooManyDigits n) := by
  obtain ⟨k, rfl⟩ : ∃ k, n = k + 1 := ⟨n - 1, by omega⟩
  have hmagnitude := magnitude_ones hn
  rw [List.replicate_succ] at hmagnitude ⊢
  have hvalue (fuel : Nat) : value (fuel + 1) ('1' :: List.replicate k '1') =
      .error (.tooManyDigits (k + 1)) := hmagnitude
  have hskip : skip ('1' :: List.replicate k '1') = '1' :: List.replicate k '1' := rfl
  unfold document
  split
  · next heq => cases heq
  · rw [hskip]
    dsimp only
    rw [hvalue]

end Json
end LintMerge
