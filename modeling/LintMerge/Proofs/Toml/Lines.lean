/-
# Lines of TOML documents

A document that spreads no value over several lines is read line by line: each line takes one state
to the next, whatever follows it (`Toml.Turns`). There are four kinds of such lines: blank ones,
comments, a name with its value, and heads of tables. The entries of a document are then those of
the state that all its lines come to (`Toml.entries_of_run`).
-/

import Mathlib.Data.Bool.AllAny
import LintMerge.Proofs.Check.Outcome
import LintMerge.Toml.Document

namespace LintMerge
namespace Toml

variable {st st' st'' : State} {s rest body : List Char} {fuel : Nat} {v : Value} {name name' : String}
  {entries : List (String × Value)}

/-! ### Names -/

/-- A name that needs no quotes. -/
def Bare (name : String) : Prop := name.toList ≠ [] ∧ ∀ c ∈ name.toList, isBare c = true

instance : DecidablePred Bare := fun name =>
  decidable_of_iff (name.toList ≠ [] ∧ name.toList.all isBare = true)
    (and_congr_right' List.all_eq_true)

/-- A name that needs no quotes starts with a character that may stand in it. -/
theorem Bare.exists_cons (h : Bare name) : ∃ c more, name.toList = c :: more ∧ isBare c = true := by
  obtain ⟨c, more, hname⟩ := List.exists_cons_of_ne_nil h.1
  exact ⟨c, more, hname, h.2 c (hname ▸ List.mem_cons_self)⟩

theorem isBlank_of_isBare {c : Char} (h : isBare c = true) : isBlank c = false := by
  rw [Bool.eq_false_iff, isBlank]
  intro hblank
  rw [Bool.or_eq_true, decide_eq_true_iff, decide_eq_true_iff] at hblank
  rcases hblank with rfl | rfl
  · exact absurd h (by decide)
  · exact absurd h (by decide)

theorem skip_bare (h : Bare name) : skip (name.toList ++ rest) = name.toList ++ rest := by
  obtain ⟨c, more, hname, hc⟩ := h.exists_cons
  rw [hname, List.cons_append, skip, List.dropWhile_cons_of_neg]
  rw [isBlank_of_isBare hc]
  decide

/-- A name ends before the first character that may not stand in it. -/
theorem keyPart_bare {c : Char} (h : Bare name) (hc : isBare c = false) :
    keyPart (name.toList ++ c :: rest) = .ok (name, c :: rest) := by
  have htake : (name.toList ++ c :: rest).takeWhile isBare = name.toList := by
    rw [List.takeWhile_append_of_pos h.2, List.takeWhile_cons_of_neg (by simp [hc]), List.append_nil]
  have hquote {k : Char} {more : List Char} (hk : isBare k = false)
      (heq : name.toList ++ c :: rest = k :: more) : False := by
    obtain ⟨k', more', hname, hk'⟩ := h.exists_cons
    rw [hname, List.cons_append] at heq
    cases (List.cons_eq_cons.1 heq).1
    cases hk.symm.trans hk'
  rw [keyPart]
  · simp only [htake]
    rw [List.drop_left, String.ofList_toList, if_neg (by simpa using h.1)]
  · exact fun _ => hquote (by decide)
  · exact fun _ => hquote (by decide)

/-- A name, and the sign after it. -/
theorem key_bare (h : Bare name) (fuel : Nat) :
    key (fuel + 1) (name.toList ++ ' ' :: '=' :: rest) = .ok ([name], '=' :: rest) := by
  rw [key, keyPart_bare h (by decide)]
  rfl

/-- Two names with a dot between them, and the bracket after them. -/
theorem key_bare_bare (h : Bare name) (h' : Bare name') (fuel : Nat) :
    key (fuel + 2) (name.toList ++ '.' :: (name'.toList ++ ']' :: rest)) =
      .ok ([name, name'], ']' :: rest) := by
  have hlast : key (fuel + 1) (name'.toList ++ ']' :: rest) = .ok ([name'], ']' :: rest) := by
    rw [key, keyPart_bare h' (by decide)]
    rfl
  rw [key, keyPart_bare h (by decide)]
  show (key (fuel + 1) (skip (name'.toList ++ ']' :: rest)) >>= _) = _
  rw [skip_bare h', hlast]
  rfl

/-! ### Strings -/

/-- A character that stands for itself in a string. -/
def Literal (c : Char) : Prop := c ≠ '"' ∧ c ≠ '\\' ∧ isIllegal c = false

instance : DecidablePred Literal := fun c =>
  inferInstanceAs (Decidable (c ≠ '"' ∧ c ≠ '\\' ∧ isIllegal c = false))

/-- A string of characters that stand for themselves is read up to its last quote. -/
theorem basic_literal (hs : ∀ c ∈ s, Literal c) (done : List Char) (hfuel : s.length < fuel) :
    basic false fuel done (s ++ '"' :: rest) = .ok (done.reverse ++ s, rest) := by
  induction s generalizing done fuel with
  | nil =>
    obtain ⟨n, rfl⟩ : ∃ n, fuel = n + 1 := ⟨fuel - 1, by omega⟩
    rw [List.append_nil]
    rfl
  | cons c s ih =>
    obtain ⟨⟨hquote, hslash, hlegal⟩, hs⟩ := List.forall_mem_cons.1 hs
    rw [List.length_cons] at hfuel
    obtain ⟨n, rfl⟩ : ∃ n, fuel = n + 1 := ⟨fuel - 1, by omega⟩
    rw [List.cons_append, basic]
    · rw [hlegal]
      show basic false n (c :: done) (s ++ '"' :: rest) = _
      rw [ih hs _ (by omega), List.reverse_cons, List.append_assoc]
      rfl
    · exact hquote
    · exact hslash

theorem string?_literal (hne : s ≠ []) (hs : ∀ c ∈ s, Literal c) :
    string? ('"' :: (s ++ '"' :: rest)) = some (.ok (s, rest)) := by
  have hline : basicLine (s ++ '"' :: rest) = .ok (s, rest) :=
    basic_literal hs [] (by rw [List.length_append]; omega)
  obtain ⟨c, more, rfl⟩ := List.exists_cons_of_ne_nil hne
  obtain ⟨⟨hquote, -⟩, -⟩ := List.forall_mem_cons.1 hs
  rw [string?, hline]
  intro _ heq
  exact hquote (List.cons_eq_cons.1 heq).1

theorem value_literal (hne : s ≠ []) (hs : ∀ c ∈ s, Literal c) (fuel : Nat) :
    value (fuel + 1) ('"' :: (s ++ '"' :: rest)) = .ok (.text (String.ofList s), rest) := by
  rw [value, string?_literal hne hs]
  · rfl
  all_goals rintro _ ⟨⟩

/-- A list of one string. -/
theorem value_singleton (hne : s ≠ []) (hs : ∀ c ∈ s, Literal c) (fuel : Nat) :
    value (fuel + 3) ('[' :: '"' :: (s ++ '"' :: ']' :: rest)) =
      .ok (.list [.text (String.ofList s)], rest) := by
  have harray : array (fuel + 2) [] ('"' :: (s ++ '"' :: ']' :: rest)) =
      .ok (.list [.text (String.ofList s)], rest) := by
    rw [array, value_literal hne hs]
    rfl
  exact harray

/-! ### Lines -/

/-- A line takes a state to another, whatever follows it. -/
def Turns (st : State) (line : List Char) (st' : State) : Prop :=
  ∀ fuel rest, State.lines (fuel + 1) st (line ++ '\n' :: rest) = State.lines fuel st' rest

theorem turns_blank (st : State) : Turns st [] st := fun _ _ => rfl

/-- A line that starts with no blank is a statement, and a comment may follow. -/
theorem turns_of_statement {c : Char} (hblank : isBlank c = false) (hfeed : c ≠ '\n')
    (h : ∀ rest, ∃ left, st.statement (c :: (s ++ '\n' :: rest)) = .ok (st', left) ∧
      skipComment (skip left) = .ok ('\n' :: rest)) : Turns st (c :: s) st' := by
  intro fuel rest
  have hskip : skip (c :: (s ++ '\n' :: rest)) = c :: (s ++ '\n' :: rest) := by
    rw [skip, List.dropWhile_cons_of_neg (by simp [hblank])]
  obtain ⟨left, hstatement, hcomment⟩ := h rest
  rw [List.cons_append, State.lines, hskip]
  split
  · next heq => cases heq
  · next heq => exact absurd (List.cons_eq_cons.1 heq).1 hfeed
  · rw [hstatement]
    show (skipComment (skip left) >>= _) = _
    rw [hcomment]
    rfl

/-- Characters that are legal are passed over. -/
theorem checkLegal_of_legal {illegal : Char → Bool} (hs : ∀ c ∈ s, illegal c = false) :
    checkLegal illegal s.length (s ++ rest) = .ok () := by
  induction s with
  | nil => cases rest <;> rfl
  | cons c s ih =>
    obtain ⟨hc, hs⟩ := List.forall_mem_cons.1 hs
    rw [List.length_cons, List.cons_append, checkLegal, hc, ← ih hs]
    rfl

/-- A comment without control characters changes nothing. -/
theorem turns_comment (st : State) (hs : ∀ c ∈ s, isIllegal c = false) : Turns st ('#' :: s) st := by
  refine turns_of_statement (by decide) (by decide) fun rest => ⟨'#' :: (s ++ '\n' :: rest), rfl, ?_⟩
  have hfeed : ∀ c ∈ s, decide (c ≠ '\n') = true := by
    intro c hc
    rw [decide_eq_true_iff]
    rintro rfl
    exact absurd (hs _ hc) (by decide)
  have hinside : (s ++ '\n' :: rest).takeWhile (fun c => decide (c ≠ '\n')) = s := by
    rw [List.takeWhile_append_of_pos hfeed, List.takeWhile_cons_of_neg (by decide), List.append_nil]
  have hskip : skip ('#' :: (s ++ '\n' :: rest)) = '#' :: (s ++ '\n' :: rest) := rfl
  rw [hskip, skipComment]
  simp only [hinside]
  rw [checkLegal_of_legal hs, List.drop_left]
  rfl

/-- Entries with one more, if its name is not taken. -/
def addEntry (name : String) (v : Value) (es : List (String × Value)) : Option (List (String × Value)) :=
  if (Value.lookup name es).isSome then none else some (Value.insert name v es)

/-- The state with an entry more in the table that is open. -/
def State.withEntry (st : State) (name : String) (v : Value) (entries : List (String × Value)) : State :=
  { st with entries, closed := if isCompound v then (st.header ++ [name]) :: st.closed else st.closed }

/-- Above a name without dots there are no names. -/
theorem above_singleton (header : Key) (name : String) : above header [name] = [] := rfl

theorem assign_bare (h : Bare name)
    (hvalue : ∀ fuel, value (fuel + 4) (body ++ '\n' :: rest) = .ok (v, '\n' :: rest))
    (hbody : skip (body ++ '\n' :: rest) = body ++ '\n' :: rest)
    (hopen : covers st.closed st.header = false)
    (hadd : changeAt true (addEntry name v) st.header st.entries = some entries) :
    st.assign (name.toList ++ ' ' :: '=' :: ' ' :: (body ++ '\n' :: rest)) =
      .ok (st.withEntry name v entries, '\n' :: rest) := by
  have hskip : skip (' ' :: (body ++ '\n' :: rest)) = body ++ '\n' :: rest := hbody
  have hlength : 2 * (body ++ '\n' :: rest).length + 2 = 2 * (body.length + rest.length) + 4 := by
    rw [List.length_append, List.length_cons]
    omega
  have hadd : changeAt true (addEntry ([name].getLast?.getD "") v) st.header st.entries = some entries :=
    hadd
  unfold addEntry at hadd
  rw [State.assign, key_bare h]
  simp only [bind, Except.bind, hskip, hlength, hvalue, above_singleton, List.find?_nil,
    List.dropLast_singleton, List.append_nil, hopen, Bool.false_eq_true, if_false, hadd]
  rfl

/-- A line that starts with a name is a name with its value. -/
theorem statement_of_bare (h : Bare name) :
    st.statement (name.toList ++ rest) = st.assign (name.toList ++ rest) := by
  obtain ⟨c, more, hname, hc⟩ := h.exists_cons
  have hbracket : c ≠ '[' := by
    rintro rfl
    exact absurd hc (by decide)
  have hhash : c ≠ '#' := by
    rintro rfl
    exact absurd hc (by decide)
  rw [hname, List.cons_append, State.statement, hc]
  · rfl
  · exact fun _ hk _ => hbracket hk
  · exact hbracket
  · exact hhash

/-- A name with its value adds an entry to the table that is open. -/
theorem turns_assign (name : String) (body : List Char) (h : Bare name)
    (hvalue : ∀ fuel rest, value (fuel + 4) (body ++ '\n' :: rest) = .ok (v, '\n' :: rest))
    (hbody : ∀ rest, skip (body ++ '\n' :: rest) = body ++ '\n' :: rest)
    (hopen : covers st.closed st.header = false)
    (hadd : changeAt true (addEntry name v) st.header st.entries = some entries) :
    Turns st (name.toList ++ ' ' :: '=' :: ' ' :: body) (st.withEntry name v entries) := by
  have hassign (rest : List Char) : st.statement (name.toList ++ ' ' :: '=' :: ' ' :: (body ++ '\n' :: rest)) =
      .ok (st.withEntry name v entries, '\n' :: rest) :=
    (statement_of_bare h).trans (assign_bare h (hvalue · rest) (hbody rest) hopen hadd)
  obtain ⟨c, more, hname, hc⟩ := h.exists_cons
  have hfeed : c ≠ '\n' := by
    rintro rfl
    exact absurd hc (by decide)
  rw [hname] at hassign ⊢
  refine turns_of_statement (isBlank_of_isBare hc) hfeed fun rest => ⟨'\n' :: rest, ?_, rfl⟩
  rw [← hassign rest]
  simp

/-- The state in which a table is open. -/
def State.withTable (st : State) (k : Key) (entries : List (String × Value)) : State :=
  { st with entries, declared := k :: st.declared, header := k }

theorem openTable_bare (h : Bare name) (h' : Bare name') (hfresh : [name, name'] ∉ st.declared)
    (hopen : covers st.closed [name, name'] = false)
    (hmake : changeAt true some [name, name'] st.entries = some entries) :
    st.openTable (name.toList ++ '.' :: (name'.toList ++ ']' :: rest)) =
      .ok (st.withTable [name, name'] entries, rest) := by
  have hlength : (name.toList ++ '.' :: (name'.toList ++ ']' :: rest)).length + 1 =
      (name.toList.length + name'.toList.length + rest.length + 1) + 2 := by
    simp only [List.length_append, List.length_cons]
    omega
  have hfresh : st.declared.contains [name, name'] = false := by simpa using hfresh
  rw [State.openTable]
  simp only [bind, Except.bind, skip_bare h, hlength, key_bare_bare h h', hfresh, hopen, Bool.or_self,
    Bool.false_eq_true, if_false, hmake]
  rfl

/-- The head of a table with two names opens the table. -/
theorem turns_table (h : Bare name) (h' : Bare name') (hpending : st.pending = [])
    (hfresh : [name, name'] ∉ st.declared) (hopen : covers st.closed [name, name'] = false)
    (hmake : changeAt true some [name, name'] st.entries = some entries) :
    Turns st ('[' :: (name.toList ++ '.' :: (name'.toList ++ [']'])))
      (st.withTable [name, name'] entries) := by
  have hsettle : st.settle = st := by
    rw [State.settle, hpending]
    cases st
    cases hpending
    rfl
  have hbracket (rest : List Char) :
      st.statement ('[' :: (name.toList ++ rest)) = st.settle.openTable (name.toList ++ rest) := by
    obtain ⟨c, more, hname, hc⟩ := h.exists_cons
    rw [hname, List.cons_append, State.statement]
    rintro _ heq
    cases (List.cons_eq_cons.1 heq).1
    exact absurd hc (by decide)
  refine turns_of_statement (by decide) (by decide) fun rest => ⟨'\n' :: rest, ?_, rfl⟩
  rw [List.append_assoc, hbracket, hsettle, ← openTable_bare h h' hfresh hopen hmake]
  simp

/-! ### Documents -/

/-- Lines take a state to another, one after the other. -/
inductive Run : State → List (List Char) → State → Prop where
  | nil {st : State} : Run st [] st
  | cons {st st' st'' : State} {line : List Char} {lines : List (List Char)} (hline : Turns st line st')
      (hlines : Run st' lines st'') : Run st (line :: lines) st''

theorem Run.append {lines lines' : List (List Char)} (h : Run st lines st') (h' : Run st' lines' st'') :
    Run st (lines ++ lines') st'' := by
  induction h with
  | nil => exact h'
  | cons hline _ ih => exact .cons hline (ih h')

/-- Lines, each ended by a line feed. -/
def ended (lines : List (List Char)) : List Char := lines.flatMap (· ++ ['\n'])

theorem ended_cons (line : List Char) (lines : List (List Char)) :
    ended (line :: lines) = line ++ '\n' :: ended lines := by
  rw [ended, List.flatMap_cons, List.append_assoc]
  rfl

theorem lines_of_run {lines : List (List Char)} (h : Run st lines st') (fuel : Nat) :
    State.lines (fuel + lines.length) st (ended lines) = .ok st' := by
  induction h with
  | nil => cases fuel <;> rfl
  | cons hline _ ih =>
    rw [ended_cons]
    exact (hline _ _).trans ih

theorem length_le_length_ended (lines : List (List Char)) : lines.length ≤ (ended lines).length := by
  induction lines with
  | nil => exact Nat.le_refl _
  | cons line rest ih =>
    rw [ended_cons]
    simp only [List.length_append, List.length_cons]
    omega

/-- **The entries of a document** are those of the state that its lines come to. -/
theorem entries_of_run {lines : List (List Char)} (h : Run {} lines st) :
    Toml.entries (ended lines) = .ok st.entries := by
  obtain ⟨k, hk⟩ := Nat.exists_eq_add_of_le' (Nat.le_succ_of_le (length_le_length_ended lines))
  rw [Toml.entries, show (ended lines).length + 1 = k + lines.length from hk, lines_of_run h]
  rfl

end Toml
end LintMerge
