/-
# Integers of TOML with too many digits

As in JSON, an integer of more than `Text.maxDigits` digits is given up with a fault of its own, and
such an integer is the only cause of this fault. Here it is traced to the text: so many digits stand
in a row in it, with nothing but single underscores between them (`Toml.hasLongRow_of_entries`).

Most of the way leads through readers that know nothing of numbers. They count because what each
leaves is an end of what it was given (`Toml.Reads`), so that what is read last is still a part of
the text.
-/

import Mathlib.Data.List.TakeWhile
import LintMerge.Proofs.Check.Outcome
import LintMerge.Toml.Document

namespace LintMerge
namespace Toml

/-- Somewhere in a text there are so many digits, and more than an integer may have, in a row in
which underscores may stand too. -/
def HasLongRow (n : Nat) (s : List Char) : Prop :=
  Text.maxDigits < n ∧ ∃ row, row <:+: s ∧ row.countP Text.isAsciiDigit = n ∧
    ∀ c ∈ row, Text.isAsciiDigit c = true ∨ c = '_'

/-- A row of digits in a part of a text is one in the text. -/
theorem HasLongRow.mono {n : Nat} {s t : List Char} (h : HasLongRow n s) (hst : s <:+: t) :
    HasLongRow n t := by
  obtain ⟨hn, row, hrow, hcount, hdigits⟩ := h
  exact ⟨hn, row, hrow.trans hst, hcount, hdigits⟩

/-- The outcome of reading the start of a text: what is left is an end of it, and where an integer
has too many digits, they stand in the text. -/
structure Reads {α : Type} (left : α → List Char) (s : List Char) (x : Except Fault α) : Prop where
  rest : ∀ {a : α}, x = .ok a → left a <:+ s
  row : ∀ {n : Nat}, x = .error (.tooManyDigits n) → HasLongRow n s

variable {α β : Type} {left : α → List Char} {left' : β → List Char} {s t rest : List Char} {fuel : Nat}

theorem reads_ok {a : α} (h : left a <:+ s) : Reads left s (.ok a) where
  rest := by
    rintro _ ⟨⟩
    exact h
  row := nofun

theorem reads_refuse (cause : Cause) (t : List Char) : Reads left s (refuse cause t) where
  rest := nofun
  row := nofun

/-- What is read of an end of a text is read of the text. -/
theorem Reads.mono {x : Except Fault α} (h : Reads left t x) (hts : t <:+ s) : Reads left s x where
  rest hx := (h.rest hx).trans hts
  row hx := (h.row hx).mono hts.isInfix

/-- **Sequencing.** What goes on reads an end of the text. -/
theorem Reads.bind {x : Except Fault α} {f : α → Except Fault β} (hx : Reads left s x)
    (hf : ∀ a, left a <:+ s → Reads left' s (f a)) : Reads left' s (x >>= f) := by
  cases x with
  | error e =>
    refine ⟨nofun, fun h => ?_⟩
    cases h
    exact hx.row rfl
  | ok a => exact hf a (hx.rest rfl)

/-- What is made of what has been read leaves the same. -/
theorem Reads.map {x : Except Fault α} {f : α → β} (hx : Reads left s x)
    (hf : ∀ a, left' (f a) = left a) : Reads left' s (x.map f) := by
  cases x with
  | error e =>
    refine ⟨nofun, fun h => ?_⟩
    cases h
    exact hx.row rfl
  | ok a => exact reads_ok (hf a ▸ hx.rest rfl)

/-! ## Blanks and comments -/

/-- What stands behind the first character of an end of a text is an end of it. -/
theorem suffix_of_eq_cons {c : Char} (h : t = c :: rest) (ht : t <:+ s) : rest <:+ s :=
  (List.suffix_cons c rest).trans (h ▸ ht)

theorem skip_suffix (s : List Char) : skip s <:+ s := List.dropWhile_suffix _

theorem skipLines_suffix (s : List Char) : skipLines s <:+ s := List.dropWhile_suffix _

theorem suffix_of_after? {start : List Char} (h : after? start s = some rest) : rest <:+ s := by
  induction start generalizing s with
  | nil =>
    cases h
    exact List.suffix_rfl
  | cons a start ih =>
    cases s with
    | nil => cases h
    | cons c more =>
      rw [after?] at h
      split at h
      · exact (ih h).trans (List.suffix_cons _ _)
      · cases h

theorem suffix_of_upTo? {stop inside : List Char} (h : upTo? stop s = some (inside, rest)) :
    rest <:+ s := by
  induction s generalizing inside with
  | nil => cases h
  | cons c more ih =>
    rw [upTo?] at h
    split at h
    · next hafter =>
      cases h
      exact suffix_of_after? hafter
    · obtain ⟨⟨head, tail⟩, hmore, heq⟩ := Option.map_eq_some_iff.1 h
      cases heq
      exact (ih hmore).trans (List.suffix_cons _ _)

theorem reads_checkLegal (illegal : Char → Bool) (count : Nat) (t : List Char) :
    Reads (fun _ => []) s (checkLegal illegal count t) := by
  induction count generalizing t with
  | zero => exact reads_ok (List.nil_suffix)
  | succ count ih =>
    cases t with
    | nil => exact reads_ok (List.nil_suffix)
    | cons c rest =>
      rw [checkLegal]
      split
      · exact reads_refuse _ _
      · exact ih rest

theorem reads_skipComment (s : List Char) : Reads id s (skipComment s) := by
  unfold skipComment
  split
  · exact (reads_checkLegal _ _ _).bind fun _ _ =>
      reads_ok ((List.drop_suffix _ _).trans (List.suffix_cons _ _))
  · exact reads_ok List.suffix_rfl

theorem reads_skipAll (fuel : Nat) (s : List Char) : Reads id s (skipAll fuel s) := by
  induction fuel generalizing s with
  | zero => exact reads_ok List.suffix_rfl
  | succ fuel ih =>
    rw [skipAll]
    split
    · next rest heq =>
      exact ((reads_skipComment _).mono (heq ▸ skipLines_suffix s)).bind fun t ht => (ih t).mono ht
    · exact reads_ok (skipLines_suffix s)

/-! ## Strings and keys -/

theorem reads_literal (illegal : Char → Bool) (quotes : String) (s : List Char) :
    Reads Prod.snd s (literal illegal quotes s) := by
  unfold literal
  split
  · exact reads_refuse _ _
  · next hupTo => exact (reads_checkLegal _ _ _).bind fun _ _ => reads_ok (suffix_of_upTo? hupTo)

theorem reads_hexChar (count : Nat) (s : List Char) : Reads Prod.snd s (hexChar count s) := by
  unfold hexChar
  dsimp only
  split
  · exact reads_refuse _ _
  · split
    · exact reads_refuse _ _
    · split
      · exact reads_ok (List.drop_suffix _ _)
      · exact reads_refuse _ _

theorem reads_escape (lines : Bool) (s : List Char) : Reads Prod.snd s (escape lines s) := by
  unfold escape
  dsimp only
  split
  · exact reads_ok (List.suffix_cons _ _)
  · exact reads_ok (List.suffix_cons _ _)
  · exact reads_ok (List.suffix_cons _ _)
  · exact reads_ok (List.suffix_cons _ _)
  · exact reads_ok (List.suffix_cons _ _)
  · exact reads_ok (List.suffix_cons _ _)
  · exact reads_ok (List.suffix_cons _ _)
  · exact ((reads_hexChar _ _).mono (List.suffix_cons _ _)).map fun _ => rfl
  · exact ((reads_hexChar _ _).mono (List.suffix_cons _ _)).map fun _ => rfl
  · next c rest _ _ _ _ _ _ _ _ _ =>
    have hskip : skip rest <:+ c :: rest := (skip_suffix rest).trans (List.suffix_cons _ _)
    split
    · exact reads_ok ((skipLines_suffix rest).trans (List.suffix_cons _ _))
    · split
      · split
        · exact reads_ok List.nil_suffix
        · next more heq =>
          exact reads_ok ((skipLines_suffix more).trans (suffix_of_eq_cons heq hskip))
        · exact reads_refuse _ _
      · exact reads_refuse _ _
  · exact reads_refuse _ _

theorem reads_basic (lines : Bool) (fuel : Nat) (done s : List Char) :
    Reads Prod.snd s (basic lines fuel done s) := by
  induction fuel generalizing done s with
  | zero => exact reads_refuse _ _
  | succ fuel ih =>
    unfold basic
    split
    · exact reads_refuse _ _
    · next rest =>
      split
      · split
        · next more =>
          exact reads_ok (List.suffix_append ['"', '"', '"'] more)
        · exact (ih _ _).mono (List.suffix_cons _ _)
      · exact reads_ok (List.suffix_cons _ _)
    · next rest =>
      have hescape := reads_escape lines rest
      split
      · next he =>
        refine ⟨nofun, fun h => ?_⟩
        cases h
        exact (hescape.row he).mono (List.suffix_cons _ _).isInfix
      · next he => exact (ih _ _).mono ((hescape.rest he).trans (List.suffix_cons _ _))
    · split
      · exact reads_refuse _ _
      · exact (ih _ _).mono (List.suffix_cons _ _)

theorem reads_basicLine (s : List Char) : Reads Prod.snd s (basicLine s) := reads_basic _ _ _ s

theorem suffix_withQuotes (quote : Char) (s rest : List Char) : (withQuotes quote s rest).2 <:+ rest := by
  unfold withQuotes
  split
  · next a b more =>
    split
    · split
      · exact List.suffix_append [a, b] more
      · exact List.suffix_cons _ _
    · exact List.suffix_rfl
  · split
    · exact List.nil_suffix
    · exact List.suffix_rfl
  · exact List.suffix_rfl

theorem reads_lines (quote : Char) (s : List Char) : Reads Prod.snd s (lines quote s) := by
  unfold lines
  dsimp only
  split
  · refine ((reads_basic _ _ _ _).mono ?_).bind fun x hx =>
      reads_ok ((suffix_withQuotes quote x.1 x.2).trans hx)
    split
    · exact List.suffix_cons _ _
    · exact List.suffix_rfl
  · refine ((reads_literal _ _ _).mono ?_).bind fun x hx =>
      reads_ok ((suffix_withQuotes quote x.1 x.2).trans hx)
    split
    · exact List.suffix_cons _ _
    · exact List.suffix_rfl

theorem reads_string? {x : Except Fault (List Char × List Char)} (h : string? s = some x) :
    Reads Prod.snd s x := by
  unfold string? at h
  split at h
  · next rest =>
    cases h
    exact (reads_lines _ _).mono (List.suffix_append ['"', '"', '"'] rest)
  · cases h
    exact (reads_basicLine _).mono (List.suffix_cons _ _)
  · next rest =>
    cases h
    exact (reads_lines _ _).mono (List.suffix_append ['\x27', '\x27', '\x27'] rest)
  · cases h
    exact (reads_literal _ _ _).mono (List.suffix_cons _ _)
  · cases h

theorem reads_keyPart (s : List Char) : Reads Prod.snd s (keyPart s) := by
  unfold keyPart
  split
  · exact ((reads_basicLine _).mono (List.suffix_cons _ _)).map fun _ => rfl
  · exact ((reads_literal _ _ _).mono (List.suffix_cons _ _)).map fun _ => rfl
  · dsimp only
    split
    · exact reads_refuse _ _
    · exact reads_ok (List.drop_suffix _ _)

theorem reads_key (fuel : Nat) (s : List Char) : Reads Prod.snd s (key fuel s) := by
  induction fuel generalizing s with
  | zero => exact reads_refuse _ _
  | succ fuel ih =>
    rw [key]
    refine (reads_keyPart s).bind fun x hx => ?_
    have hskip : skip x.2 <:+ s := (skip_suffix _).trans hx
    dsimp only
    split
    · next rest heq =>
      have hrest : skip rest <:+ s :=
        (skip_suffix rest).trans (suffix_of_eq_cons heq hskip)
      exact ((ih _).mono hrest).bind fun _ hy => reads_ok hy
    · exact reads_ok hskip

/-! ## Numbers and moments -/

/-- Digits are read from a row of them, in which underscores do not count. -/
theorem exists_row_digitRun (isDigit : Char → Bool) (s : List Char) :
    ∃ row, s = row ++ (digitRun isDigit s).2 ∧ (∀ c ∈ row, isDigit c = true ∨ c = '_') ∧
      (isDigit '_' = false → (digitRun isDigit s).1.length = row.countP isDigit) := by
  induction s with
  | nil => exact ⟨[], rfl, nofun, fun _ => rfl⟩
  | cons c rest ih =>
    obtain ⟨row, hrest, hrow, hcount⟩ := ih
    unfold digitRun
    split
    · next hc =>
      refine ⟨c :: row, congrArg (c :: ·) hrest, ?_, fun hund => ?_⟩
      · rintro d (_ | ⟨_, hd⟩)
        · exact .inl hc
        · exact hrow d hd
      · rw [List.countP_cons_of_pos hc, ← hcount hund]
        rfl
    · next hc =>
      split
      · next d more =>
        split
        · refine ⟨'_' :: row, congrArg ('_' :: ·) hrest, ?_, fun hund => ?_⟩
          · rintro e (_ | ⟨_, he⟩)
            · exact .inr rfl
            · exact hrow e he
          · rw [List.countP_cons_of_neg hc, ← hcount hund]
        · exact ⟨[], rfl, nofun, fun _ => rfl⟩
      · exact ⟨[], rfl, nofun, fun _ => rfl⟩

theorem digitRun_suffix (isDigit : Char → Bool) (s : List Char) : (digitRun isDigit s).2 <:+ s := by
  obtain ⟨row, hrow, -⟩ := exists_row_digitRun isDigit s
  exact ⟨row, hrow.symm⟩

theorem exists_row_someDigits? {ds : List Char} (h : someDigits? Text.isAsciiDigit s = some (ds, rest)) :
    ∃ row, s = row ++ rest ∧ (∀ c ∈ row, Text.isAsciiDigit c = true ∨ c = '_') ∧
      ds.length = row.countP Text.isAsciiDigit := by
  rw [someDigits?] at h
  split at h
  · obtain ⟨row, hsplit, hrow, hcount⟩ := exists_row_digitRun Text.isAsciiDigit s
    rw [Option.some.inj h] at hsplit hcount
    exact ⟨row, hsplit, hrow, hcount (by decide)⟩
  · cases h

theorem suffix_of_someDigits? {isDigit : Char → Bool} {ds : List Char}
    (h : someDigits? isDigit s = some (ds, rest)) : rest <:+ s := by
  rw [someDigits?] at h
  split at h
  · rw [← (Prod.mk.inj (Option.some.inj h)).2]
    exact digitRun_suffix isDigit s
  · cases h

/-- What is made of digits alone leaves what they leave. -/
theorem suffix_of_map_someDigits? {isDigit : Char → Bool} {f : List Char × List Char → β × List Char}
    {x : β} (h : (someDigits? isDigit s).map f = some (x, rest)) (hf : ∀ read, (f read).2 = read.2) :
    rest <:+ s := by
  obtain ⟨read, hread, heq⟩ := Option.map_eq_some_iff.1 h
  have hrest : read.2 = rest := (hf read).symm.trans (congrArg Prod.snd heq)
  exact hrest ▸ suffix_of_someDigits? hread

theorem suffix_of_based? {v : Value} (h : based? s = some (v, rest)) : rest <:+ s := by
  unfold based? at h
  dsimp only at h
  split at h
  · exact (suffix_of_map_someDigits? h fun _ => rfl).trans (List.suffix_cons _ _)
  · exact (suffix_of_map_someDigits? h fun _ => rfl).trans (List.suffix_cons _ _)
  · exact (suffix_of_map_someDigits? h fun _ => rfl).trans (List.suffix_cons _ _)
  · cases h

theorem suffix_of_fraction {ds : List Char} (h : fraction s = some (ds, rest)) : rest <:+ s := by
  unfold fraction at h
  split at h
  · exact (suffix_of_someDigits? h).trans (List.suffix_cons _ _)
  · cases h

theorem suffix_of_exponent {n : Int} (h : exponent s = some (n, rest)) : rest <:+ s := by
  unfold exponent at h
  split at h
  · next c more =>
    refine List.IsSuffix.trans ?_ (List.suffix_cons c more)
    dsimp only at h
    split at h
    · have hrest := suffix_of_map_someDigits? h fun _ => rfl
      split at hrest
      · exact hrest.trans (List.suffix_cons _ _)
      · exact hrest.trans (List.suffix_cons _ _)
      · exact hrest
    · cases h
  · cases h

theorem suffix_getD_fraction (s : List Char) : ((fraction s).map (·.2)).getD s <:+ s := by
  cases hfraction : fraction s with
  | none => exact List.suffix_rfl
  | some _ => exact suffix_of_fraction hfraction

theorem suffix_getD_exponent (s : List Char) : ((exponent s).map (·.2)).getD s <:+ s := by
  cases hexponent : exponent s with
  | none => exact List.suffix_rfl
  | some _ => exact suffix_of_exponent hexponent

/-- **The whole part of a number** is all that is counted of it. -/
theorem reads_decimal? {x : Except Fault (Value × List Char)} (h : decimal? s = some x) :
    Reads Prod.snd s x := by
  unfold decimal? at h
  split at h
  next negative body hsign =>
  have hbody : body <:+ s := by
    split at hsign <;> cases hsign
    · exact List.suffix_cons _ _
    · exact List.suffix_cons _ _
    · exact List.suffix_rfl
  dsimp only at h
  obtain ⟨⟨whole, rest⟩, hwhole, rfl⟩ := Option.map_eq_some_iff.1 h
  obtain ⟨row, hsplit, hrow, hcount⟩ : ∃ row, body = row ++ rest ∧
      (∀ c ∈ row, Text.isAsciiDigit c = true ∨ c = '_') ∧
      whole.length = row.countP Text.isAsciiDigit := by
    split at hwhole
    · cases hwhole
      exact ⟨['0'], rfl, fun c hc => .inl (List.mem_singleton.1 hc ▸ rfl), rfl⟩
    · exact exists_row_someDigits? hwhole
  have hrest : rest <:+ s := (hsplit ▸ List.suffix_append row rest).trans hbody
  have hpower := ((suffix_getD_exponent _).trans (suffix_getD_fraction rest)).trans hrest
  split
  · split
    · next hlong =>
      refine ⟨nofun, fun hn => ?_⟩
      cases hn
      exact ⟨hlong, row, (hsplit ▸ (List.prefix_append row rest).isInfix).trans hbody.isInfix,
        hcount.symm, hrow⟩
    · exact reads_ok hpower
  · exact reads_ok hpower

theorem reads_number? {x : Except Fault (Value × List Char)} (h : number? s = some x) :
    Reads Prod.snd s x := by
  unfold number? at h
  dsimp only at h
  split at h
  · next v hbased =>
    cases h
    split at hbased
    · exact reads_ok ((suffix_of_based? hbased).trans (List.suffix_cons _ _))
    · cases hbased
  · split at h
    · next hdecimal =>
      cases h
      exact reads_decimal? hdecimal
    · split at h
      · cases h
        exact reads_ok (List.suffix_append "inf".toList _)
      · cases h
        exact reads_ok (List.suffix_append "+inf".toList _)
      · cases h
        exact reads_ok (List.suffix_append "-inf".toList _)
      · cases h
        exact reads_ok (List.suffix_append "nan".toList _)
      · cases h
        exact reads_ok (List.suffix_append "+nan".toList _)
      · cases h
        exact reads_ok (List.suffix_append "-nan".toList _)
      · cases h

theorem suffix_of_two? {least greatest : Nat} (h : two? least greatest s = some rest) : rest <:+ s := by
  unfold two? at h
  split at h
  · next a b more =>
    obtain ⟨n, -, h⟩ := Option.bind_eq_some_iff.1 h
    split at h
    · cases h
      exact List.suffix_append [a, b] _
    · cases h
  · cases h

theorem suffix_of_afterTime? (h : afterTime? s = some rest) : rest <:+ s := by
  simp only [afterTime?, Option.bind_eq_bind, Option.bind_eq_some_iff] at h
  obtain ⟨s₁, h₁, s₂, h₂, s₃, h₃, s₄, h₄, s₅, h₅, h⟩ := h
  have hs₅ : s₅ <:+ s :=
    (((suffix_of_two? h₅).trans (suffix_of_after? h₄)).trans
      ((suffix_of_two? h₃).trans (suffix_of_after? h₂))).trans (suffix_of_two? h₁)
  split at h
  · next more =>
    cases h
    split
    · exact hs₅
    · exact ((List.drop_suffix _ _).trans (List.suffix_cons _ _)).trans hs₅
  · cases h
    exact hs₅

theorem suffix_of_afterOffset? (h : afterOffset? s = some rest) : rest <:+ s := by
  unfold afterOffset? at h
  split at h
  · cases h
    exact List.suffix_cons _ _
  · cases h
    exact List.suffix_cons _ _
  · split at h
    · simp only [Option.bind_eq_bind, Option.bind_eq_some_iff] at h
      obtain ⟨s₁, h₁, s₂, h₂, h⟩ := h
      exact (((suffix_of_two? h).trans (suffix_of_after? h₂)).trans (suffix_of_two? h₁)).trans
        (List.suffix_cons _ _)
    · cases h
  · cases h

theorem suffix_of_afterDate? {valid : Bool} (h : afterDate? s = some (valid, rest)) : rest <:+ s := by
  simp only [afterDate?, Option.bind_eq_bind, Option.bind_eq_some_iff] at h
  obtain ⟨_, -, t, ht, u₀, hu₀, u, hu, rest', hrest, _, -, _, -, heq⟩ := h
  cases heq
  exact (((suffix_of_two? hrest).trans (suffix_of_after? hu)).trans (suffix_of_two? hu₀)).trans
    ((suffix_of_after? ht).trans (List.drop_suffix _ _))

theorem reads_moment? {x : Except Fault (Value × List Char)} (h : moment? s = some x) :
    Reads Prod.snd s x := by
  unfold moment? at h
  dsimp only at h
  split at h
  · next valid rest hdate =>
    have hrest := suffix_of_afterDate? hdate
    cases h
    split
    · refine reads_ok (List.IsSuffix.trans ?_ hrest)
      dsimp only
      split
      · next c more =>
        split
        · cases htime : afterTime? more with
          | none => exact List.suffix_rfl
          | some t =>
            have ht := (suffix_of_afterTime? htime).trans (List.suffix_cons c more)
            cases hoffset : afterOffset? t with
            | none => simpa [hoffset] using ht
            | some u => simpa [hoffset] using (suffix_of_afterOffset? hoffset).trans ht
        · exact List.suffix_rfl
      · exact List.suffix_rfl
    · exact reads_refuse _ _
  · next hdate =>
    obtain ⟨rest, htime, rfl⟩ := Option.map_eq_some_iff.1 h
    exact reads_ok (suffix_of_afterTime? htime)

/-! ## Values -/

/-- What is read with some fuel, be it a value or the rest of a list or a table. -/
structure ReadsAll (fuel : Nat) : Prop where
  value : ∀ s, Reads Prod.snd s (value fuel s)
  array : ∀ done s, Reads Prod.snd s (array fuel done s)
  inline : ∀ es closed s, Reads Prod.snd s (inline fuel es closed s)

theorem reads_value (hall : ReadsAll fuel) (s : List Char) : Reads Prod.snd s (value (fuel + 1) s) := by
  unfold value
  split
  · next hstring => exact (reads_string? hstring).map fun _ => rfl
  · split
    · next rest _ => exact reads_ok (List.suffix_append "true".toList rest)
    · next rest _ => exact reads_ok (List.suffix_append "false".toList rest)
    · next rest _ =>
      refine ((reads_skipAll _ _).mono (List.suffix_cons _ _)).bind fun rest hrest => ?_
      split
      · exact reads_ok ((List.suffix_cons _ _).trans hrest)
      · exact (hall.array _ _).mono hrest
    · next rest _ =>
      have hskip : skip rest <:+ '\x7b' :: rest := (skip_suffix rest).trans (List.suffix_cons _ _)
      split
      · next heq => exact reads_ok (suffix_of_eq_cons heq hskip)
      · exact (hall.inline _ _ _).mono hskip
    · split
      · next hmoment => exact reads_moment? hmoment
      · split
        · next hnumber => exact reads_number? hnumber
        · exact reads_refuse _ _

theorem reads_array (hall : ReadsAll fuel) (done : List Value) (s : List Char) :
    Reads Prod.snd s (array (fuel + 1) done s) := by
  rw [array]
  refine (hall.value s).bind fun x hx => ?_
  dsimp only
  refine ((reads_skipAll _ _).mono hx).bind fun rest hrest => ?_
  split
  · exact reads_ok ((List.suffix_cons _ _).trans hrest)
  · next more =>
    have hmore : more <:+ s := (List.suffix_cons _ _).trans hrest
    refine ((reads_skipAll _ _).mono hmore).bind fun rest' hrest' => ?_
    split
    · exact reads_ok ((List.suffix_cons _ _).trans hrest')
    · exact (hall.array _ _).mono hrest'
  · exact reads_refuse _ _

theorem reads_inline (hall : ReadsAll fuel) (es : List (String × Value)) (closed : List Key)
    (s : List Char) : Reads Prod.snd s (inline (fuel + 1) es closed s) := by
  rw [inline]
  refine (reads_key _ s).bind fun x hx => ?_
  dsimp only
  split
  · next rest heq =>
    have hrest : skip rest <:+ s := (skip_suffix rest).trans (suffix_of_eq_cons heq hx)
    refine ((hall.value _).mono hrest).bind fun y hy => ?_
    split
    · exact reads_refuse _ _
    · split
      · exact reads_refuse _ _
      · split
        · exact reads_refuse _ _
        · have hskip : skip y.2 <:+ s := (skip_suffix _).trans hy
          split
          · next heq' => exact reads_ok (suffix_of_eq_cons heq' hskip)
          · next more heq' =>
            exact (hall.inline _ _ _).mono
              ((skip_suffix more).trans (suffix_of_eq_cons heq' hskip))
          · exact reads_refuse _ _
  · exact reads_refuse _ _

theorem readsAll (fuel : Nat) : ReadsAll fuel := by
  induction fuel with
  | zero =>
    exact ⟨fun _ => reads_refuse _ _, fun _ _ => reads_refuse _ _, fun _ _ _ => reads_refuse _ _⟩
  | succ fuel ih => exact ⟨reads_value ih, reads_array ih, reads_inline ih⟩

/-! ## Statements -/

namespace State

variable (st : State) (s : List Char)

theorem reads_assign : Reads Prod.snd s (st.assign s) := by
  rw [assign]
  refine (reads_key _ s).bind fun x hx => ?_
  dsimp only
  split
  · next rest heq =>
    have hrest : skip rest <:+ s := (skip_suffix rest).trans (suffix_of_eq_cons heq hx)
    refine (((readsAll _).value _).mono hrest).bind fun y hy => ?_
    split
    · exact reads_refuse _ _
    · split
      · exact reads_refuse _ _
      · split
        · exact reads_refuse _ _
        · exact reads_ok hy
  · exact reads_refuse _ _

theorem reads_openTable : Reads Prod.snd s (st.openTable s) := by
  rw [openTable]
  refine ((reads_key _ _).mono (skip_suffix s)).bind fun x hx => ?_
  dsimp only
  split
  · exact reads_refuse _ _
  · split
    · exact reads_refuse _ _
    · split
      · next heq => exact reads_ok (suffix_of_eq_cons heq hx)
      · exact reads_refuse _ _

theorem reads_openItem : Reads Prod.snd s (st.openItem s) := by
  rw [openItem]
  refine ((reads_key _ _).mono (skip_suffix s)).bind fun x hx => ?_
  dsimp only
  split
  · exact reads_refuse _ _
  · split
    · exact reads_refuse _ _
    · split
      · next more heq =>
        rw [heq] at hx
        exact reads_ok ((List.suffix_append [']', ']'] more).trans hx)
      · exact reads_refuse _ _

theorem reads_statement : Reads Prod.snd s (st.statement s) := by
  unfold statement
  split
  · next rest => exact (reads_openItem _ _).mono (List.suffix_append ['[', '['] rest)
  · exact (reads_openTable _ _).mono (List.suffix_cons _ _)
  · exact reads_ok List.suffix_rfl
  · split
    · exact reads_assign _ _
    · exact reads_refuse _ _
  · exact reads_ok List.suffix_rfl

theorem reads_lines (fuel : Nat) : Reads (fun _ => []) s (lines fuel st s) := by
  induction fuel generalizing st s with
  | zero => exact reads_ok List.nil_suffix
  | succ fuel ih =>
    have hskip := skip_suffix s
    rw [lines]
    split
    · exact reads_ok List.nil_suffix
    · next heq => exact (ih _ _).mono (suffix_of_eq_cons heq hskip)
    · refine ((reads_statement _ _).mono hskip).bind fun x hx => ?_
      dsimp only
      refine ((reads_skipComment _).mono ((skip_suffix _).trans hx)).bind fun rest hrest => ?_
      split
      · exact reads_ok List.nil_suffix
      · exact (ih _ _).mono ((List.suffix_cons _ _).trans hrest)
      · exact reads_refuse _ _

end State

/-- **A document of which an integer has too many digits** holds so many digits in a row. -/
theorem hasLongRow_of_entries {n : Nat} (h : entries s = .error (.tooManyDigits n)) :
    HasLongRow n s := by
  have hreads : Reads (fun _ => []) s (entries s) :=
    (State.reads_lines {} s (s.length + 1)).map fun _ => rfl
  exact hreads.row h

end Toml
end LintMerge
