/-
# The first version in an answer

A version is three numerals with dots between them (`Version.IsVersion`). Numerals hold no dot, so
where a version starts is settled how it goes on: only its last numeral may be cut short, and the
longest one is read (`Version.here?_append`). The version that an answer tells is the one that
starts earliest, and no digit stands before or after it (`Version.First`). An answer that holds none
is told as it is, without the white space around it, and what is told once is told again
(`Version.ofAnswer_first`).

A letter `v` may stand before a version. A search that tries to pass over it, and takes as many
digits as it can and then fewer and fewer of them, comes to the same version (`Version.search_eq`):
a numeral that is cut short is followed by a digit, and so by no dot.
-/

import LintMerge.Linter.Version
import LintMerge.Proofs.Output.Headers
import LintMerge.Proofs.Text.Spelling

namespace LintMerge
namespace Version

open Output.Tsc (IsNumeral)

variable {s t v ds : List Char}

/-- Three numerals with dots between them. -/
def IsVersion (v : List Char) : Prop :=
  ∃ major minor patch, IsNumeral major ∧ IsNumeral minor ∧ IsNumeral patch ∧
    v = major ++ '.' :: minor ++ '.' :: patch

/-- A text starts with no digit. -/
def Ended (s : List Char) : Prop := ∀ c ∈ s.head?, Text.isDigit c = false

theorem ended_cons_iff {c : Char} : Ended (c :: s) ↔ ¬ Text.isDigit c = true := by
  simp [Ended]

theorem ended_dot (s : List Char) : Ended ('.' :: s) := ended_cons_iff.2 (by decide)

theorem ended_dropWhile (s : List Char) : Ended (s.dropWhile Text.isDigit) := fun c hc => by
  simpa [Option.mem_def.1 hc] using List.head?_dropWhile_not Text.isDigit s

/-- A numeral is read with all the digits that follow it. -/
theorem number?_append (hds : IsNumeral ds) (t : List Char) :
    number? (ds ++ t) = some (ds ++ t.takeWhile Text.isDigit, t.dropWhile Text.isDigit) := by
  rw [number?, List.takeWhile_append_of_pos hds.2, List.dropWhile_append_of_pos hds.2]
  exact if_neg (by simp [hds.1])

/-- A numeral that no digit follows is read as it stands. -/
theorem number?_append_ended (hds : IsNumeral ds) (ht : Ended t) :
    number? (ds ++ t) = some (ds, t) := by
  have hnone : t.takeWhile Text.isDigit = [] ∧ t.dropWhile Text.isDigit = t := by
    cases t with
    | nil => exact ⟨rfl, rfl⟩
    | cons c t =>
      have hc := ended_cons_iff.1 ht
      exact ⟨List.takeWhile_cons_of_neg hc, List.dropWhile_cons_of_neg hc⟩
  rw [number?_append hds, hnone.1, hnone.2, List.append_nil]

/-- What is read as a number is a numeral, and no digit follows it. -/
theorem of_number? (h : number? s = some (ds, t)) : IsNumeral ds ∧ s = ds ++ t ∧ Ended t := by
  rw [number?] at h
  split at h
  · cases h
  · next hne =>
    cases h
    exact ⟨⟨by simpa using hne, fun c hc => List.mem_takeWhile_imp hc⟩,
      List.takeWhile_append_dropWhile.symm, ended_dropWhile s⟩

theorem afterDot?_eq_some_iff : afterDot? s = some t ↔ s = '.' :: t := by
  constructor
  · intro h
    unfold afterDot? at h
    split at h
    · exact congrArg _ (Option.some.inj h)
    · cases h
  · rintro rfl
    rfl

/-- **A version at the start of a text** is read with all the digits that follow it. -/
theorem here?_append (hv : IsVersion v) (t : List Char) :
    here? (v ++ t) = some (v ++ t.takeWhile Text.isDigit) := by
  obtain ⟨major, minor, patch, hmajor, hminor, hpatch, rfl⟩ := hv
  have hfirst : number? (major ++ '.' :: (minor ++ '.' :: (patch ++ t))) =
      some (major, '.' :: (minor ++ '.' :: (patch ++ t))) := number?_append_ended hmajor (ended_dot _)
  have hsecond : number? (minor ++ '.' :: (patch ++ t)) = some (minor, '.' :: (patch ++ t)) :=
    number?_append_ended hminor (ended_dot _)
  simp only [List.append_assoc, List.cons_append, here?, hfirst, hsecond, number?_append hpatch t,
    afterDot?, Option.bind_eq_bind, Option.bind_some, Option.pure_def]

/-- What is read at the start of a text is a version, and no digit follows it. -/
theorem of_here? (h : here? s = some v) : IsVersion v ∧ ∃ back, s = v ++ back ∧ Ended back := by
  simp only [here?, Option.bind_eq_bind, Option.bind_eq_some_iff, Option.pure_def, Option.some.injEq,
    Prod.exists, afterDot?_eq_some_iff] at h
  obtain ⟨major, _, hfirst, _, rfl, minor, _, hsecond, _, rfl, patch, back, hthird, rfl⟩ := h
  obtain ⟨hmajor, rfl, -⟩ := of_number? hfirst
  obtain ⟨hminor, rfl, -⟩ := of_number? hsecond
  obtain ⟨hpatch, rfl, hback⟩ := of_number? hthird
  exact ⟨⟨major, minor, patch, hmajor, hminor, hpatch, rfl⟩, back, by simp, hback⟩

theorem find?_cons (c : Char) (s : List Char) : find? (c :: s) = (here? (c :: s)).or (find? s) := by
  rw [find?]
  cases here? (c :: s) <;> rfl

/-- **The search goes on from the start.** What it finds is read at a place before which nothing is. -/
theorem of_find? (h : find? s = some v) : ∃ front rest, s = front ++ rest ∧ here? rest = some v ∧
    ∀ front' rest', s = front' ++ rest' → here? rest' ≠ none → front.length ≤ front'.length := by
  induction s with
  | nil => cases h
  | cons c s ih =>
    rw [find?_cons] at h
    cases hhere : here? (c :: s) with
    | some w =>
      rw [hhere, Option.some_or] at h
      exact ⟨[], c :: s, rfl, hhere.trans h, fun _ _ _ _ => Nat.zero_le _⟩
    | none =>
      rw [hhere, Option.none_or] at h
      obtain ⟨front, rest, rfl, hrest, hearliest⟩ := ih h
      refine ⟨c :: front, rest, rfl, hrest, fun front' rest' hs hsome => ?_⟩
      cases front' with
      | nil =>
        obtain rfl : c :: (front ++ rest) = rest' := hs
        exact absurd hhere hsome
      | cons c' front' => exact Nat.succ_le_succ (hearliest front' rest' (List.cons.inj hs).2 hsome)

/-- What is read somewhere in a text is found, if nothing is before. -/
theorem find?_ne_none {front rest : List Char} (h : here? rest ≠ none) :
    find? (front ++ rest) ≠ none := by
  induction front with
  | nil =>
    cases rest with
    | nil => exact absurd rfl h
    | cons c rest =>
      rw [List.nil_append, find?_cons, Ne, Option.or_eq_none_iff]
      exact fun hnone => h hnone.1
  | cons c front ih =>
    rw [List.cons_append, find?_cons, Ne, Option.or_eq_none_iff]
    exact fun hnone => ih hnone.2

/-- **A version is found in exactly the texts that hold one.** -/
theorem find?_eq_none_iff : find? s = none ↔ ∀ v, v <:+: s → ¬ IsVersion v := by
  constructor
  · rintro hnone v ⟨front, back, rfl⟩ hv
    rw [List.append_assoc] at hnone
    exact find?_ne_none (by rw [here?_append hv]; exact Option.some_ne_none _) hnone
  · intro h
    cases hfind : find? s with
    | none => rfl
    | some v =>
      obtain ⟨front, rest, rfl, hrest, -⟩ := of_find? hfind
      obtain ⟨hv, back, rfl, -⟩ := of_here? hrest
      exact absurd hv (h v ⟨front, back, by rw [List.append_assoc]⟩)

/-- A version between two parts of a text is the first one of the text. -/
structure First (front v back : List Char) : Prop where
  isVersion : IsVersion v
  /-- none starts earlier -/
  earliest : ∀ front' v' back', front' ++ v' ++ back' = front ++ v ++ back → IsVersion v' →
    front.length ≤ front'.length
  /-- one that starts where it starts is a part of it -/
  longest : ∀ v' back', front ++ v' ++ back' = front ++ v ++ back → IsVersion v' → v' <+: v
  /-- no digit stands before its first numeral -/
  before : ∀ c ∈ front.getLast?, Text.isDigit c = false
  /-- no digit stands after its last numeral -/
  after : Ended back

/-- A digit in front of a version belongs to a version that starts earlier. -/
theorem IsVersion.cons (hv : IsVersion v) {c : Char} (hc : Text.isDigit c = true) :
    IsVersion (c :: v) := by
  obtain ⟨major, minor, patch, hmajor, hminor, hpatch, rfl⟩ := hv
  exact ⟨c :: major, minor, patch, ⟨List.cons_ne_nil _ _, List.forall_mem_cons.2 ⟨hc, hmajor.2⟩⟩,
    hminor, hpatch, rfl⟩

/-- **What is found is the first version of a text.** -/
theorem first_of_find? (h : find? s = some v) :
    ∃ front back, s = front ++ v ++ back ∧ First front v back := by
  obtain ⟨front, rest, rfl, hrest, hfirst⟩ := of_find? h
  obtain ⟨hv, back, rfl, hback⟩ := of_here? hrest
  have hearliest (front' v' back' : List Char) (hs : front' ++ v' ++ back' = front ++ v ++ back)
      (hv' : IsVersion v') : front.length ≤ front'.length := by
    rw [List.append_assoc, List.append_assoc] at hs
    refine hfirst front' (v' ++ back') hs.symm ?_
    rw [here?_append hv']
    exact Option.some_ne_none _
  refine ⟨front, back, (List.append_assoc _ _ _).symm, hv, hearliest, fun v' back' hs hv' => ?_,
    fun c hc => ?_, hback⟩
  · rw [List.append_assoc, List.append_assoc] at hs
    have hread := here?_append hv' back'
    rw [List.append_cancel_left hs, hrest] at hread
    exact ⟨_, (Option.some.inj hread).symm⟩
  · obtain ⟨front', rfl⟩ := List.getLast?_eq_some_iff.1 hc
    refine Bool.eq_false_iff.2 fun hdigit => ?_
    have hlength := hearliest front' (c :: v) back (by simp) (hv.cons hdigit)
    rw [List.length_append, List.length_singleton] at hlength
    exact absurd hlength (Nat.not_succ_le_self _)

/-- A version is found in itself. -/
theorem find?_version (hv : IsVersion v) : find? v = some v := by
  have hhere : here? v = some v := by
    have hread := here?_append hv []
    rwa [List.takeWhile_nil, List.append_nil] at hread
  cases v with
  | nil => cases hhere
  | cons c v => rw [find?_cons, hhere, Option.some_or]

theorem ofAnswer_of_find? {answer : String} (h : find? answer.toList = some v) :
    ofAnswer answer = String.ofList v := by
  rw [ofAnswer, h]

theorem ofAnswer_of_none {answer : String} (h : find? answer.toList = none) :
    ofAnswer answer = trimmed answer := by
  rw [ofAnswer, h]

/-- What is told once is told again: a version is found in itself, and what is left of a text without
one holds none. -/
theorem ofAnswer_again (answer : String) : ofAnswer (ofAnswer answer) = ofAnswer answer := by
  cases hfind : find? answer.toList with
  | some v =>
    obtain ⟨front, back, -, hfirst⟩ := first_of_find? hfind
    have hagain : find? (String.ofList v).toList = some v := by
      rw [String.toList_ofList]
      exact find?_version hfirst.isVersion
    rw [ofAnswer_of_find? hfind, ofAnswer_of_find? hagain]
  | none =>
    have hagain : find? (trimmed answer).toList = none := by
      rw [trimmed, String.toList_ofList]
      refine find?_eq_none_iff.2 fun v hv => ?_
      exact find?_eq_none_iff.1 hfind v (hv.trans (Text.trim_infix _))
    rw [ofAnswer_of_none hfind, ofAnswer_of_none hagain, trimmed, trimmed, String.toList_ofList,
      Text.trim_trim]

/-- The ways to take one digit or more from the start of a text, as many as possible first. -/
def runs : List Char → List (List Char × List Char)
  | [] => []
  | c :: rest =>
    if Text.isDigit c then (runs rest).map (fun r => (c :: r.1, r.2)) ++ [([c], rest)] else []

/-- The ways to read a version at the start of a text, in the order in which they are tried. -/
def readings (s : List Char) : List (List Char) :=
  (runs s).flatMap fun major => (afterDot? major.2).toList.flatMap fun s =>
    (runs s).flatMap fun minor => (afterDot? minor.2).toList.flatMap fun s =>
      (runs s).map fun patch => major.1 ++ '.' :: minor.1 ++ '.' :: patch.1

/-- The ways to read a version at the start of a text, those after a letter in front of it first. -/
def attempts : List Char → List (List Char)
  | 'v' :: rest => readings rest ++ readings ('v' :: rest)
  | s => readings s

/-- A search that tries every way to read a version at every place. -/
def search : List Char → Option (List Char)
  | [] => none
  | c :: rest => (attempts (c :: rest)).head?.or (search rest)

theorem number?_of_ended (hs : Ended s) : number? s = none := by
  cases s with
  | nil => rfl
  | cons c s =>
    rw [number?, List.takeWhile_cons_of_neg (ended_cons_iff.1 hs)]
    rfl

/-- A digit is read with the number that follows it, if one does. -/
theorem number?_cons {c : Char} (hc : Text.isDigit c = true) (s : List Char) :
    number? (c :: s) = some (((number? s).map fun r => (c :: r.1, r.2)).getD ([c], s)) := by
  have hone : IsNumeral [c] := ⟨List.cons_ne_nil _ _, by simpa using hc⟩
  refine (number?_append hone s).trans ?_
  have hparts := List.takeWhile_append_dropWhile (p := Text.isDigit) (l := s)
  rw [number?]
  cases hdigits : s.takeWhile Text.isDigit with
  | nil =>
    rw [hdigits, List.nil_append] at hparts
    rw [hparts]
    rfl
  | cons d ds => rfl

theorem runs_of_ended (hs : Ended s) : runs s = [] := by
  cases s with
  | nil => rfl
  | cons c s => rw [runs, if_neg (ended_cons_iff.1 hs)]

/-- The longest run is tried first. -/
theorem head?_runs (s : List Char) : (runs s).head? = number? s := by
  induction s with
  | nil => rfl
  | cons c s ih =>
    by_cases hc : Text.isDigit c = true
    · rw [runs, if_pos hc, List.head?_append, List.head?_map, ih, number?_cons hc]
      cases number? s <;> rfl
    · rw [runs_of_ended (ended_cons_iff.2 hc), number?_of_ended (ended_cons_iff.2 hc)]
      rfl

/-- **Only the longest run may go on with a dot**, so that fewer digits are tried in vain. -/
theorem findSome?_runs {β : Type} {g : List Char × List Char → Option β}
    (hg : ∀ r, ¬ Ended r.2 → g r = none) : (runs s).findSome? g = (number? s).bind g := by
  induction s generalizing g with
  | nil => rfl
  | cons c s ih =>
    by_cases hc : Text.isDigit c = true
    · rw [runs, if_pos hc, List.findSome?_append, List.findSome?_map, List.findSome?_singleton,
        ih (g := g ∘ fun r => (c :: r.1, r.2)) fun r hr => hg (c :: r.1, r.2) hr, number?_cons hc]
      cases hs : number? s with
      | none => rfl
      | some r =>
        have hmore : ¬ Ended s := fun hended => by
          rw [number?_of_ended hended] at hs
          cases hs
        rw [hg ([c], s) hmore, Option.or_none]
        rfl
    · rw [runs_of_ended (ended_cons_iff.2 hc), number?_of_ended (ended_cons_iff.2 hc)]
      rfl

/-- A dot follows no run that is cut short. -/
theorem afterDot?_of_not_ended (hs : ¬ Ended s) : afterDot? s = none := by
  refine Option.eq_none_iff_forall_ne_some.2 fun t ht => hs ?_
  rw [afterDot?_eq_some_iff.1 ht]
  exact ended_dot t

theorem head?_flatMap_toList {α β : Type} (o : Option α) (f : α → List β) :
    (o.toList.flatMap f).head? = o.bind fun a => (f a).head? := by
  cases o <;> simp

/-- The way that is tried first to read a version at the start of a text. -/
theorem head?_readings (s : List Char) : (readings s).head? = here? s := by
  rw [readings, List.head?_flatMap, findSome?_runs]
  · simp only [head?_flatMap_toList]
    refine Option.bind_congr fun major _ => Option.bind_congr fun s _ => ?_
    rw [List.head?_flatMap, findSome?_runs]
    · simp only [head?_flatMap_toList, List.head?_map, head?_runs]
      refine Option.bind_congr fun minor _ => Option.bind_congr fun s _ => ?_
      cases number? s <;> rfl
    · intro minor hminor
      rw [afterDot?_of_not_ended hminor]
      rfl
  · intro major hmajor
    rw [afterDot?_of_not_ended hmajor]
    rfl

/-- What is read at the start of a text is what is found in it. -/
theorem here?_or_find? (s : List Char) : (here? s).or (find? s) = find? s := by
  cases s with
  | nil => rfl
  | cons c s => rw [find?_cons, ← Option.or_assoc, Option.or_self]

/-- **Trying every way comes to the same version.** -/
theorem search_eq (s : List Char) : search s = find? s := by
  induction s with
  | nil => rfl
  | cons c s ih =>
    rw [search, ih, find?_cons, attempts.eq_def]
    split
    · next rest hv =>
      obtain ⟨rfl, rfl⟩ := List.cons.inj hv
      have hv : Ended ('v' :: s) := ended_cons_iff.2 (by decide)
      have hhere : here? ('v' :: s) = none := by
        rw [here?, number?_of_ended hv]
        rfl
      have hreadings : readings ('v' :: s) = [] := by
        rw [readings, runs_of_ended hv, List.flatMap_nil]
      rw [hreadings, List.append_nil, head?_readings, hhere, here?_or_find?, Option.none_or]
    · rw [head?_readings]

example : ofAnswer "tool 1.2 at v3.04.15.6" = "3.04.15" := by decide +kernel

end Version
end LintMerge
