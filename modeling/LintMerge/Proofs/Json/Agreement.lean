/-
# The two readers agree

Documents are read strictly, as written reports are, and less strictly, as the output of
tools is. What the strict reader accepts, the other reads as the same value
(`document_of_strict`): it knows the same escapes, numbers and words, and it refuses
neither depth nor half of a pair of code units. So "the value of a document" has one
meaning for all documents that reports are read from.

The proof follows the strict reader, and takes what it accepts apart: strings, numbers, and
then values, lists and tables together, by induction on the fuel that both have.
-/

import LintMerge.Json.Reader
import LintMerge.Proofs.Check.Outcome
import LintMerge.Proofs.Json.Tokens

namespace LintMerge
namespace Json

variable {s rest : List Char} {fuel : Nat}

/-- The digits that the strict reader reads of an escape, the other reads, too. -/
theorem fourHex?_of_unit {n : Nat} (h : Strict.unit s = .ok (n, rest)) :
    fourHex? s = some (n, rest) ∧ s.length = rest.length + 4 := by
  rw [Strict.unit] at h
  split at h
  · cases h
  have hstep {k m : Nat} {t : List Char} (h : Strict.unit.go (k + 1) m t = .ok (n, rest)) :
      ∃ c u d, t = c :: u ∧ hexValue? c = some d ∧ Strict.unit.go k (m * 16 + d) u = .ok (n, rest) := by
    unfold Strict.unit.go at h
    split at h
    · cases h
    · next c u =>
      split at h
      · cases h
      · next d hd => exact ⟨c, u, d, rfl, hd, h⟩
  obtain ⟨a, t, da, rfl, ha, h⟩ := hstep h
  obtain ⟨b, t, db, rfl, hb, h⟩ := hstep h
  obtain ⟨c, t, dc, rfl, hc, h⟩ := hstep h
  obtain ⟨d, t, dd, rfl, hd, h⟩ := hstep h
  cases h
  refine ⟨?_, rfl⟩
  rw [fourHex?, ha, hb, hc, hd]
  simp

/-- A character that the strict reader reads of an escape, the other reads, too, if something
follows it. -/
theorem codePoint_of_strict {c : Char} (h : Strict.codePoint s = .ok (c, rest)) (hrest : rest ≠ []) :
    codePoint s = .ok (.char c, rest) := by
  obtain ⟨⟨n, r⟩, hunit, h⟩ := Faulty.bind_eq_ok.1 h
  obtain ⟨hfour, hlength⟩ := fourHex?_of_unit hunit
  have hpos : 0 < rest.length := List.length_pos_iff.2 hrest
  dsimp only at h
  split at h
  · cases h
  · next hlow =>
    split at h
    · next hhigh =>
      split at h
      · next more =>
        obtain ⟨⟨low, r'⟩, hunit', h⟩ := Faulty.bind_eq_ok.1 h
        obtain ⟨hfour', hlength'⟩ := fourHex?_of_unit hunit'
        dsimp only at h
        split at h
        · next hsecond =>
          rw [Except.ok.injEq, Prod.mk.injEq] at h
          obtain ⟨rfl, rfl⟩ := h
          rw [List.length_cons, List.length_cons] at hlength
          have hlong : ¬ s.length < 5 := by omega
          have hlong' : ¬ more.length < 5 := by omega
          simp only [codePoint, if_neg hlong, hfour, if_pos hhigh, if_neg hlong', hfour', if_pos hsecond]
        · cases h
      · split at h <;> cases h
      · cases h
      · cases h
    · next hhigh =>
      cases h
      have hlong : ¬ s.length < 5 := by omega
      have hwhole : ¬ (0xD800 ≤ n ∧ n < 0xE000) := by omega
      simp only [codePoint, if_neg hlong, hfour, if_neg hhigh, Glyph.ofUnit, dif_neg hwhole]

/-- A string that goes on to its quote is not empty. -/
theorem ne_nil_of_string {done cs : List Char} (h : Strict.string fuel done s = .ok (cs, rest)) : s ≠ [] := by
  rintro rfl
  cases fuel <;> cases h

/-- **Strings** are read alike. -/
theorem string_of_strict (opening : Nat) {done cs : List Char}
    (h : Strict.string fuel done s = .ok (cs, rest)) :
    string opening fuel (Glyph.ofChars done) s = .ok (Glyph.ofChars cs, rest) := by
  induction fuel generalizing done s with
  | zero => cases h
  | succ fuel ih =>
    unfold Strict.string at h
    split at h
    · cases h
    · cases h
      rw [Glyph.ofChars, Glyph.ofChars, List.map_reverse]
      rfl
    · split at h
      · cases h
      · exact ih h
      · exact ih h
      · exact ih h
      · exact ih h
      · exact ih h
      · exact ih h
      · exact ih h
      · exact ih h
      · split at h
        · cases h
        · next hcode =>
          simp only [string, escape, codePoint_of_strict hcode (ne_nil_of_string h)]
          exact ih h
      · cases h
    · next c t hquote hback =>
      split at h
      · cases h
      · next hc =>
        rw [string]
        · rw [if_neg hc]
          exact ih h
        · exact hquote
        · exact hback

theorem quoted_of_strict {t : String} (h : Strict.quoted s = .ok (t, rest)) :
    quoted s = .ok (Glyph.ofChars t.toList, rest) := by
  obtain ⟨⟨cs, r⟩, hstring, h⟩ := Faulty.bind_eq_ok.1 h
  cases Faulty.pure_eq_ok.1 h
  rw [String.toList_ofList]
  exact string_of_strict _ hstring

/-- Digits of which there is one. -/
theorem someDigits_eq_ok {ds : List Char} (h : Strict.someDigits s = .ok (ds, rest)) :
    ds = digits s ∧ ds.isEmpty = false ∧ rest = s.drop ds.length := by
  rw [Strict.someDigits] at h
  split at h
  · cases h
  · next hne =>
    cases h
    exact ⟨rfl, Bool.not_eq_true _ ▸ hne, rfl⟩

/-- The fraction of a number, if it has one. -/
theorem fraction_of_strict {tail : List Char} (h : Strict.fraction s = .ok (tail, rest)) :
    (s.head? = some '.' → (fraction? s).isSome = true) ∧ tail = ((fraction? s).map (·.1)).getD [] ∧
      rest = ((fraction? s).map (·.2)).getD s := by
  unfold Strict.fraction at h
  split at h
  · next r =>
    obtain ⟨rfl, hne, rfl⟩ := someDigits_eq_ok h
    simp [fraction?, hne]
  · next hpoint =>
    cases h
    have hnone : fraction? s = none := by
      unfold fraction?
      split
      · next r => exact absurd rfl (hpoint r)
      · rfl
    refine ⟨fun hhead => ?_, by rw [hnone]; rfl, by rw [hnone]; rfl⟩
    obtain ⟨r, rfl⟩ := List.head?_eq_some_iff.1 hhead
    exact absurd rfl (hpoint r)

/-- The exponent of a number, if it has one. -/
theorem exponent_of_strict {n : Int} (h : Strict.power s = .ok (n, rest)) :
    (s.head? = some 'e' ∨ s.head? = some 'E' → (exponent? s).isSome = true) ∧
      n = ((exponent? s).map (·.1)).getD 0 ∧ rest = ((exponent? s).map (·.2)).getD s := by
  unfold Strict.power at h
  split at h
  · cases h
    exact ⟨fun h => by simp at h, rfl, rfl⟩
  · next c r =>
    split at h
    · next he =>
      obtain ⟨⟨ds, t⟩, hdigits, h⟩ := Faulty.bind_eq_ok.1 h
      cases Faulty.pure_eq_ok.1 h
      obtain ⟨rfl, hne, rfl⟩ := someDigits_eq_ok hdigits
      have hsome : exponent? (c :: r) = some
          (if (powerSign r).1 then -(natOf (digits (powerSign r).2) : Int) else natOf (digits (powerSign r).2),
            (powerSign r).2.drop (digits (powerSign r).2).length) := by
        simp only [exponent?, if_pos he, hne, if_false, Bool.false_eq_true]
      rw [hsome]
      exact ⟨fun _ => rfl, rfl, rfl⟩
    · next he =>
      cases h
      rw [not_or] at he
      simp [exponent?, he.1, he.2]

/-- Numbers with a fraction or an exponent are read alike. -/
theorem ofWhole_of_floating {negative : Bool} {whole : List Char} {v : Value}
    (h : Strict.floating negative whole s = .ok (v, rest)) (hs : Strict.goesOn s = true) :
    ofWhole negative whole s = .ok (v, rest) := by
  obtain ⟨⟨tail, s₁⟩, hfraction, h⟩ := Faulty.bind_eq_ok.1 h
  obtain ⟨⟨power, s₂⟩, hpower, h⟩ := Faulty.bind_eq_ok.1 h
  cases Faulty.pure_eq_ok.1 h
  obtain ⟨hpoint, rfl, rfl⟩ := fraction_of_strict hfraction
  obtain ⟨hletter, rfl, rfl⟩ := exponent_of_strict hpower
  have hsome : ((fraction? s).isNone &&
      (exponent? (((fraction? s).map (·.2)).getD s)).isNone) = false := by
    cases hnone : fraction? s with
    | some f => rfl
    | none =>
      rw [hnone] at hpoint hletter
      rw [Option.isNone_none, Bool.true_and, Option.isNone_eq_false_iff]
      apply hletter
      cases s with
      | nil => cases hs
      | cons c r =>
        have hc : c = '.' ∨ c = 'e' ∨ c = 'E' := by simpa [Strict.goesOn, or_assoc] using hs
        rcases hc with rfl | rfl | rfl
        · exact absurd (hpoint rfl) Bool.false_ne_true
        · exact .inl rfl
        · exact .inr rfl
  rw [ofWhole]
  dsimp only
  rw [hsome, if_neg Bool.false_ne_true]

/-- Integers are read alike. -/
theorem ofWhole_of_not_goesOn {negative : Bool} {whole : List Char} (hs : Strict.goesOn s = false)
    (hwhole : whole.length ≤ Text.maxDigits) :
    ofWhole negative whole s = .ok (.int (if negative then -(natOf whole : Int) else natOf whole), s) := by
  have hfraction : fraction? s = none := by
    unfold fraction?
    split
    · cases hs
    · rfl
  have hexponent : exponent? s = none := by
    cases s with
    | nil => rfl
    | cons c r =>
      have hc : ¬ (c = 'e' ∨ c = 'E') := by
        rintro (rfl | rfl) <;> cases hs
      rw [exponent?, if_neg hc]
  have hshort : ¬ whole.length > Text.maxDigits := Nat.not_lt.2 hwhole
  simp only [ofWhole, hfraction, Option.map_none, Option.getD_none, hexponent, Option.isNone_none,
    Bool.and_self, if_true, if_neg hshort]

/-- The rest of a word stands at the start of what is read. -/
theorem word_eq_ok {expected : List Char} : Strict.word expected s = .ok rest ↔ s = expected ++ rest := by
  induction expected generalizing s with
  | nil =>
    rw [Strict.word, Except.ok.injEq]
    rfl
  | cons e expected ih =>
    cases s with
    | nil => exact ⟨nofun, nofun⟩
    | cons c s =>
      rw [Strict.word]
      split
      · next h => rw [ih, h, List.cons_append, List.cons.injEq, eq_self_iff_true, true_and]
      · next h => exact ⟨nofun, fun heq => absurd (List.cons.inj heq).1.symm h⟩

/-- What the strict reader reads of a number after its sign: an infinity, or what the other reads
after a digit. -/
theorem magnitude_of_strict {negative : Bool} {v : Value}
    (h : Strict.magnitude negative s = .ok (v, rest)) :
    (s = "Infinity".toList ++ rest ∧ v = .float (.infinite negative)) ∨
      ∃ c r, s = c :: r ∧ Text.isAsciiDigit c = true ∧ magnitude negative s = .ok (v, rest) := by
  unfold Strict.magnitude at h
  split at h
  · cases h
  · next r =>
    have hwhole : magnitude negative ('0' :: r) = ofWhole negative ['0'] r := rfl
    refine .inr ⟨'0', r, rfl, rfl, ?_⟩
    rw [hwhole]
    split at h
    · next hgoes => exact ofWhole_of_floating h hgoes
    · next hends =>
      split at h
      · cases h
        rw [ofWhole_of_not_goesOn (Bool.not_eq_true _ ▸ hends) (by decide)]
        cases negative <;> rfl
      · cases h
  · obtain ⟨r', hword, h⟩ := Faulty.bind_eq_ok.1 h
    cases Faulty.pure_eq_ok.1 h
    rw [word_eq_ok.1 hword]
    exact .inl ⟨rfl, rfl⟩
  · next hnil hzero _ =>
    have hhead : s.head? ≠ some '0' := by
      intro hhead
      obtain ⟨r, rfl⟩ := List.head?_eq_some_iff.1 hhead
      exact hzero r rfl
    have hwhole : magnitude negative s = ofWhole negative (digits s) (s.drop (digits s).length) := by
      rw [magnitude, if_neg hhead]
    rw [hwhole]
    dsimp only at h
    split at h
    · cases h
    · next hdigits =>
      refine .inr ?_
      have hdigit : ∃ c r, s = c :: r ∧ Text.isAsciiDigit c = true := by
        cases s with
        | nil => exact absurd rfl hdigits
        | cons c r =>
          refine ⟨c, r, rfl, ?_⟩
          by_contra hc
          exact hdigits (by rw [digits, List.takeWhile_cons_of_neg hc]; rfl)
      obtain ⟨c, r, hs, hc⟩ := hdigit
      refine ⟨c, r, hs, hc, ?_⟩
      split at h
      · next hgoes => exact ofWhole_of_floating h hgoes
      · next hends =>
        by_cases hlength : (digits s).length + (if negative then 1 else 0) > Text.maxDigits
        · rw [if_pos hlength] at h
          cases h
        · rw [if_neg hlength] at h
          cases h
          exact ofWhole_of_not_goesOn (Bool.not_eq_true _ ▸ hends) (by omega)

/-- **Numbers** are read alike. -/
theorem number_of_strict {v : Value} (h : Strict.number s = .ok (v, rest)) :
    number s = .ok (v, rest) := by
  have hne {c d : Char} (hc : Text.isAsciiDigit c = true) (hd : Text.isAsciiDigit d = false) : c ≠ d := by
    rintro rfl
    rw [hc] at hd
    cases hd
  unfold Strict.number at h
  split at h
  · next r =>
    rcases magnitude_of_strict h with ⟨rfl, rfl⟩ | ⟨c, r', rfl, hc, hread⟩
    · rfl
    · rw [number, if_pos hc, hread]
      exact fun _ heq => absurd heq (hne hc rfl)
  · next r =>
    obtain ⟨r', hword, h⟩ := Faulty.bind_eq_ok.1 h
    cases Faulty.pure_eq_ok.1 h
    rw [word_eq_ok.1 hword]
    rfl
  · next r =>
    rcases magnitude_of_strict h with ⟨hs, rfl⟩ | ⟨c, r', hs, hc, -⟩
    · rw [hs]
      rfl
    · exact absurd (List.cons.inj hs).1.symm (hne hc rfl)
  · next c r _ _ _ =>
    split at h
    · next hc =>
      rcases magnitude_of_strict h with ⟨hs, rfl⟩ | ⟨_, _, _, -, hread⟩
      · exact absurd (List.cons.inj hs).1 (hne hc rfl)
      · rw [number, if_pos hc, hread]
        · exact fun _ heq => absurd heq (hne hc rfl)
        · exact fun _ heq => absurd heq (hne hc rfl)
        · exact fun _ heq => absurd heq (hne hc rfl)
        · exact fun _ _ heq => absurd heq (hne hc rfl)
    · cases h
  · cases h

/-- What the strict reader reads with some fuel, be it a value or the rest of a list or a table, the
other reads, too. -/
structure Agree (fuel : Nat) : Prop where
  value : ∀ {depth : Nat} {s rest : List Char} {v : Value},
    Strict.value fuel depth s = .ok (v, rest) → value fuel s = .ok (v, rest)
  items : ∀ {depth : Nat} {s rest : List Char} {v : Value} {done : List Value},
    Strict.items fuel depth done s = .ok (v, rest) → items fuel done s = .ok (v, rest)
  members : ∀ {depth : Nat} {s rest : List Char} {v : Value} {done : List (String × Value)},
    Strict.members fuel depth done s = .ok (v, rest) → members fuel done s = .ok (v, rest)

variable {depth : Nat} {v : Value}

/-- A value is read alike when the rests of lists and tables are. -/
theorem value_of_strict (hagree : Agree fuel) (h : Strict.value (fuel + 1) depth s = .ok (v, rest)) :
    value (fuel + 1) s = .ok (v, rest) := by
  unfold Strict.value at h
  split at h
  · obtain ⟨⟨t, r⟩, hquoted, h⟩ := Faulty.bind_eq_ok.1 h
    cases Faulty.pure_eq_ok.1 h
    rw [value, quoted_of_strict hquoted]
    show Except.ok (Value.ofGlyphs _, _) = _
    rw [Value.ofGlyphs_ofChars, String.ofList_toList]
  · next r =>
    rw [value]
    split at h
    · cases h
    · next heq =>
      cases h
      rw [heq]
      rfl
    · next hnil hclose =>
      split
      · next r' heq => exact absurd heq (hclose r')
      · exact hagree.members h
  · next r =>
    rw [value]
    split at h
    · cases h
    · next heq =>
      cases h
      rw [heq]
      rfl
    · next hnil hclose =>
      split at h
      · split
        · next r' heq => exact absurd heq (hclose r')
        · exact hagree.items h
      · cases h
  · obtain ⟨r, hword, h⟩ := Faulty.bind_eq_ok.1 h
    cases Faulty.pure_eq_ok.1 h
    rw [word_eq_ok.1 hword]
    rfl
  · obtain ⟨r, hword, h⟩ := Faulty.bind_eq_ok.1 h
    cases Faulty.pure_eq_ok.1 h
    rw [word_eq_ok.1 hword]
    rfl
  · obtain ⟨r, hword, h⟩ := Faulty.bind_eq_ok.1 h
    cases Faulty.pure_eq_ok.1 h
    rw [word_eq_ok.1 hword]
    rfl
  · next hquote hbrace hbracket hnull htrue hfalse =>
    rw [value]
    · exact number_of_strict h
    · exact hquote
    · exact hbrace
    · exact hbracket
    · exact fun _ => hnull _
    · exact fun _ => htrue _
    · exact fun _ => hfalse _

/-- The rest of a list is read alike. -/
theorem items_of_strict (hagree : Agree fuel) {done : List Value}
    (h : Strict.items (fuel + 1) depth done s = .ok (v, rest)) :
    items (fuel + 1) done s = .ok (v, rest) := by
  rw [Strict.items] at h
  obtain ⟨⟨w, r⟩, hvalue, h⟩ := Faulty.bind_eq_ok.1 h
  rw [items, hagree.value hvalue]
  refine Faulty.bind_eq_ok.2 ⟨(w, r), rfl, ?_⟩
  dsimp only at h ⊢
  split at h
  · cases h
  · next heq =>
    cases h
    rw [heq]
    rfl
  · next heq =>
    rw [heq]
    split at h
    · cases h
    · cases h
    · exact hagree.items h
  · cases h

/-- The rest of a table is read alike. -/
theorem members_of_strict (hagree : Agree fuel) {done : List (String × Value)}
    (h : Strict.members (fuel + 1) depth done s = .ok (v, rest)) :
    members (fuel + 1) done s = .ok (v, rest) := by
  unfold Strict.members at h
  split at h
  · obtain ⟨⟨name, r⟩, hquoted, h⟩ := Faulty.bind_eq_ok.1 h
    rw [members, quoted_of_strict hquoted]
    refine Faulty.bind_eq_ok.2 ⟨(Glyph.ofChars name.toList, r), rfl, ?_⟩
    dsimp only at h ⊢
    rw [Glyph.text_ofChars, String.ofList_toList]
    split at h
    · cases h
    · next heq =>
      rw [heq]
      split at h
      · cases h
      · split at h
        · obtain ⟨⟨w, r'⟩, hvalue, h⟩ := Faulty.bind_eq_ok.1 h
          refine Faulty.bind_eq_ok.2 ⟨(w, r'), hagree.value hvalue, ?_⟩
          dsimp only at h ⊢
          split at h
          · cases h
          · next heq =>
            cases h
            rw [heq]
            rfl
          · next heq =>
            rw [heq]
            split at h
            · cases h
            · cases h
            · exact hagree.members h
          · cases h
        · cases h
    · cases h
  · cases h

/-- **Values, lists and tables** are read alike, whatever the fuel. -/
theorem agree (fuel : Nat) : Agree fuel := by
  induction fuel with
  | zero => exact ⟨nofun, nofun, nofun⟩
  | succ fuel ih => exact ⟨value_of_strict ih, items_of_strict ih, members_of_strict ih⟩

/-- No value starts with a byte order mark. -/
theorem Strict.value_ne_of_mark {r : List Char} :
    Strict.value fuel depth ('\ufeff' :: r) ≠ .ok (v, rest) := by
  cases fuel with
  | zero => exact nofun
  | succ fuel => exact nofun

/-- **The two readers agree**: what the strict reader accepts, the other reads as the same value. -/
theorem document_of_strict (h : Strict.document s = .ok v) : document s = .ok v := by
  unfold Strict.document at h
  split at h
  · cases h
  · next body =>
    obtain ⟨⟨w, r⟩, hvalue, h⟩ := Faulty.bind_eq_ok.1 h
    dsimp only at h
    split at h
    · next heq =>
      cases h
      have hread := (agree _).value hvalue
      unfold document
      split
      · next t => exact absurd hvalue Strict.value_ne_of_mark
      · simp only [hread, heq]
    · cases h

end Json
end LintMerge
