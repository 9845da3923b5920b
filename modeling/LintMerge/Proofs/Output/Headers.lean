/-
# Headers of the type checker

The first line of a record has the form `path(line,column): category code: text`
(`Header.Fits`): the path does not start with white space, the category is one of three, the code
is `TS` and digits, and a space before the text does not belong to it. The form does not say where
the path ends, since what follows it may also stand inside of a path or of a text. The shortest
path counts (`Header.Heads`), and this settles everything else: a line is read as a header exactly
when it has the form, and then as the one with the shortest path (`header?_eq_some_iff`).
-/

import LintMerge.Proofs.Output.LongNumbers

namespace LintMerge
namespace Output
namespace Tsc

/-- One digit or more. -/
def IsNumeral (ds : List Char) : Prop := ds ≠ [] ∧ ∀ c ∈ ds, Text.isDigit c = true

/-- What stands in a header between its path and its text. -/
def Header.middle (h : Header) : List Char :=
  '(' :: h.line ++ ',' :: h.column ++ "): ".toList ++ h.category.toList ++ ' ' :: h.code ++ [':']

/-- The parts of a header are of the right kind, but for the path. -/
structure Header.Proper (h : Header) : Prop where
  line : IsNumeral h.line
  column : IsNumeral h.column
  category : h.category ∈ categories
  code : ∃ ds, h.code = 'T' :: 'S' :: ds ∧ IsNumeral ds

/-- What follows the path of a header is the rest of a line; a space before the text of the header
is not a part of it. -/
def Header.Ends (h : Header) (rest : List Char) : Prop :=
  rest = h.middle ++ ' ' :: h.text ∨ (rest = h.middle ++ h.text ∧ h.text.head? ≠ some ' ')

/-- A line has the form of a header. -/
structure Header.Fits (h : Header) (s : List Char) : Prop where
  proper : h.Proper
  path : ∃ c, h.path.head? = some c ∧ Text.isBlank c = false
  layout : ∃ rest, s = h.path ++ rest ∧ h.Ends rest

/-- A line is written as a header, and as none that has a shorter path. -/
def Header.Heads (h : Header) (s : List Char) : Prop :=
  h.Fits s ∧ ∀ h' : Header, h'.Fits s → h.path.length ≤ h'.path.length

theorem after?_append (start s : List Char) : after? start (start ++ s) = some s := by
  induction start with
  | nil => rfl
  | cons a start ih => rw [List.cons_append, after?, if_pos rfl, ih]

/-- A numeral is read up to a character that is no digit. -/
theorem digits?_append {ds : List Char} (hds : IsNumeral ds) {c : Char} (hc : Text.isDigit c = false)
    (t : List Char) : digits? (ds ++ c :: t) = some (ds, c :: t) := by
  have htake : (ds ++ c :: t).takeWhile Text.isDigit = ds := by
    rw [List.takeWhile_append_of_pos hds.2, List.takeWhile_cons_of_neg (by rw [hc]; decide),
      List.append_nil]
  rw [digits?, htake, if_neg (by simpa using hds.1), List.drop_left]

theorem isNumeral_of_digits? {s ds t : List Char} (h : digits? s = some (ds, t)) :
    IsNumeral ds ∧ s = ds ++ t := by
  have hrow := (isRow_of_digits? h).1.2
  rw [digits?] at h
  split at h
  · cases h
  · next hne =>
    cases h
    exact ⟨⟨by simpa using hne, hrow⟩,
      List.prefix_iff_eq_append.1 (List.takeWhile_prefix _) |>.symm⟩

theorem mem_of_category? {s t : List Char} {c : String} (h : category? s = some (c, t)) :
    c ∈ categories ∧ s = c.toList ++ t := by
  obtain ⟨c', hc', h⟩ := List.exists_of_findSome?_eq_some h
  obtain ⟨t', ht', h⟩ := Option.map_eq_some_iff.1 h
  cases h
  exact ⟨hc', after?_eq_some ht'⟩

/-- No category starts with the first letter of another. -/
theorem category?_append {c : String} (hc : c ∈ categories) (t : List Char) :
    category? (c.toList ++ t) = some (c, t) := by
  have hcases : c = "error" ∨ c = "warning" ∨ c = "message" := by simpa [categories] using hc
  rcases hcases with rfl | rfl | rfl <;> rfl

/-- What is left of a text without a space at its start. -/
theorem getD_after?_space {s t : List Char} :
    (after? [' '] s).getD s = t ↔ s = ' ' :: t ∨ (s = t ∧ t.head? ≠ some ' ') := by
  cases s with
  | nil => cases t <;> simp [after?]
  | cons c s =>
    by_cases hc : c = ' '
    · subst hc
      rw [after?, if_pos rfl]
      constructor
      · rintro rfl
        exact .inl rfl
      · rintro (h | ⟨rfl, h⟩)
        · exact (List.cons.inj h).2
        · exact absurd rfl h
    · rw [after?, if_neg (Ne.symm hc)]
      constructor
      · rintro rfl
        exact .inr ⟨rfl, fun h => hc (Option.some.inj h)⟩
      · rintro (h | ⟨h, -⟩)
        · exact absurd (List.cons.inj h).1 hc
        · exact h

theorem Header.ends_iff {h : Header} {s : List Char} :
    h.Ends s ↔ ∃ t, s = h.middle ++ t ∧ (after? [' '] t).getD t = h.text := by
  simp only [getD_after?_space, Header.Ends]
  constructor
  · rintro (rfl | ⟨rfl, hhead⟩)
    · exact ⟨_, rfl, .inl rfl⟩
    · exact ⟨_, rfl, .inr ⟨rfl, hhead⟩⟩
  · rintro ⟨t, rfl, (rfl | ⟨rfl, hhead⟩)⟩
    · exact .inl rfl
    · exact .inr ⟨rfl, hhead⟩

/-- **What follows a path is read as the header that ends so.** -/
theorem afterPath?_eq_some_iff {path s : List Char} {h : Header} :
    afterPath? path s = some h ↔ h.path = path ∧ h.Proper ∧ h.Ends s := by
  simp only [afterPath?, Option.bind_eq_bind, Option.bind_eq_some_iff, Option.pure_def,
    Option.some.injEq, Header.ends_iff]
  constructor
  · rintro ⟨s₁, hparen, ⟨line, s₂⟩, hs₁, s₃, hcomma, ⟨column, s₄⟩, hs₃, s₅, hclose, ⟨category, s₆⟩,
      hs₅, s₇, hblank, ⟨code, s₈⟩, hs₇, t, hcolon, rfl⟩
    obtain ⟨hline, rfl⟩ := isNumeral_of_digits? hs₁
    obtain ⟨hcolumn, rfl⟩ := isNumeral_of_digits? hs₃
    obtain ⟨hcategory, rfl⟩ := mem_of_category? hs₅
    obtain ⟨hcode, rfl⟩ := isNumeral_of_digits? hs₇
    obtain rfl := after?_eq_some hparen
    obtain rfl : s₂ = [','] ++ (column ++ s₄) := after?_eq_some hcomma
    obtain rfl : s₄ = "): ".toList ++ (category.toList ++ s₆) := after?_eq_some hclose
    obtain rfl : s₆ = " TS".toList ++ (code ++ s₈) := after?_eq_some hblank
    obtain rfl : s₈ = [':'] ++ t := after?_eq_some hcolon
    refine ⟨rfl, ⟨hline, hcolumn, hcategory, code, rfl, hcode⟩, t, ?_, rfl⟩
    simp [Header.middle]
  · rintro ⟨rfl, ⟨hline, hcolumn, hcategory, code, hcode, hds⟩, t, rfl, htext⟩
    have hmiddle : h.middle ++ t = ['('] ++ (h.line ++ ',' :: (h.column ++ ')' :: (": ".toList ++
        (h.category.toList ++ (" TS".toList ++ (code ++ ':' :: t)))))) := by
      rw [Header.middle, hcode]
      simp
    rw [hmiddle]
    refine ⟨_, after?_append _ _, _, digits?_append hline (by decide) _, _, after?_append [','] _, _,
      digits?_append hcolumn (by decide) _, _, after?_append "): ".toList _, _,
      category?_append hcategory _, _, after?_append _ _, _, digits?_append hds (by decide) _, t,
      after?_append [':'] _, ?_⟩
    rw [htext, ← hcode]

/-- A path is read up to the first place where a header may go on. -/
theorem headerFrom?_eq_some {start s : List Char} {h : Header} (hs : headerFrom? start s = some h) :
    ∃ path rest, s = path ++ rest ∧ afterPath? (start.reverse ++ path) rest = some h ∧
      ∀ path' rest' h', s = path' ++ rest' → afterPath? (start.reverse ++ path') rest' = some h' →
        path.length ≤ path'.length := by
  induction s generalizing start with
  | nil => cases hs
  | cons c s ih =>
    rw [headerFrom?] at hs
    split at hs
    · next hhere =>
      cases hs
      exact ⟨[], c :: s, rfl, by rwa [List.append_nil], fun _ _ _ _ _ => Nat.zero_le _⟩
    · next hhere =>
      obtain ⟨path, rest, rfl, hpath, hshort⟩ := ih hs
      simp only [List.reverse_cons, List.append_assoc, List.singleton_append] at hpath hshort
      refine ⟨c :: path, rest, rfl, hpath, fun path' rest' h' hs' hpath' => ?_⟩
      cases path' with
      | nil =>
        rw [List.append_nil, ← List.nil_append rest', ← hs', hhere] at hpath'
        cases hpath'
      | cons c' path' =>
        obtain ⟨rfl, hsplit⟩ := List.cons.inj hs'
        exact Nat.succ_le_succ (hshort path' rest' h' hsplit hpath')

/-- Without a header no place of a line is one where a header may go on. -/
theorem headerFrom?_eq_none {start s : List Char} (hs : headerFrom? start s = none) (path rest : List Char)
    (hsplit : s = path ++ rest) : afterPath? (start.reverse ++ path) rest = none := by
  induction s generalizing start path with
  | nil =>
    obtain ⟨rfl, rfl⟩ := List.append_eq_nil_iff.1 hsplit.symm
    rfl
  | cons c s ih =>
    rw [headerFrom?] at hs
    split at hs
    · cases hs
    · next hhere =>
      cases path with
      | nil => rwa [List.append_nil, ← List.nil_append rest, ← hsplit]
      | cons c' path =>
        obtain ⟨rfl, hs'⟩ := List.cons.inj hsplit
        have hrest := ih hs path hs'
        rwa [List.reverse_cons, List.append_assoc] at hrest

/-- A line that has the form of a header goes on after the path as the header does. -/
theorem Header.fits_iff {h : Header} {c : Char} {s : List Char} : h.Fits (c :: s) ↔
    Text.isBlank c = false ∧ ∃ path rest, s = path ++ rest ∧ afterPath? (c :: path) rest = some h := by
  simp only [afterPath?_eq_some_iff]
  constructor
  · rintro ⟨hproper, ⟨c', hhead, hblank⟩, rest, hsplit, hends⟩
    obtain ⟨path, hpath⟩ := List.head?_eq_some_iff.1 hhead
    rw [hpath] at hsplit
    obtain ⟨rfl, rfl⟩ := List.cons.inj hsplit
    exact ⟨hblank, path, rest, rfl, hpath, hproper, hends⟩
  · rintro ⟨hblank, path, rest, rfl, hpath, hproper, hends⟩
    exact ⟨hproper, ⟨c, by rw [hpath]; rfl, hblank⟩, rest, by rw [hpath]; rfl, hends⟩

/-- A path of a given length settles what header a line has. -/
theorem Header.Fits.eq_of_length_eq {h h' : Header} {s : List Char} (hs : h.Fits s) (hs' : h'.Fits s)
    (hlength : h.path.length = h'.path.length) : h = h' := by
  obtain ⟨hproper, -, rest, rfl, hends⟩ := hs
  obtain ⟨hproper', -, rest', hsplit, hends'⟩ := hs'
  obtain ⟨hpath, rfl⟩ := List.append_inj hsplit hlength
  have hread : afterPath? h.path rest = some h := afterPath?_eq_some_iff.2 ⟨rfl, hproper, hends⟩
  have hread' : afterPath? h.path rest = some h' := afterPath?_eq_some_iff.2 ⟨hpath.symm, hproper', hends'⟩
  exact Option.some.inj (hread.symm.trans hread')

/-- A line has at most one header. -/
theorem Header.Heads.unique {h h' : Header} {s : List Char} (hs : h.Heads s) (hs' : h'.Heads s) : h = h' :=
  hs.1.eq_of_length_eq hs'.1 (Nat.le_antisymm (hs.2 h' hs'.1) (hs'.2 h hs.1))

/-- A line that has the form of a header is read as a header. -/
theorem Header.Fits.exists_header? {h : Header} {s : List Char} (hs : h.Fits s) :
    ∃ h', header? s = some h' := by
  cases s with
  | nil =>
    obtain ⟨-, ⟨c, hhead, -⟩, rest, hsplit, -⟩ := hs
    rw [(List.append_eq_nil_iff.1 hsplit.symm).1] at hhead
    cases hhead
  | cons c s =>
    obtain ⟨hblank, path, rest, hsplit, hpath⟩ := Header.fits_iff.1 hs
    rw [header?, if_neg (by rw [hblank]; decide)]
    cases hread : headerFrom? [c] s with
    | some h' => exact ⟨h', rfl⟩
    | none =>
      have hnone := headerFrom?_eq_none hread path rest hsplit
      rw [List.reverse_singleton, List.singleton_append, hpath] at hnone
      cases hnone

/-- What a line is read as is the header that it is written as. -/
theorem heads_of_header? {s : List Char} {h : Header} (hs : header? s = some h) : h.Heads s := by
  cases s with
  | nil => cases hs
  | cons c s =>
    rw [header?] at hs
    split at hs
    · cases hs
    · next hblank =>
      obtain ⟨path, rest, hsplit, hpath, hshort⟩ := headerFrom?_eq_some hs
      refine ⟨Header.fits_iff.2 ⟨Bool.not_eq_true _ ▸ hblank, path, rest, hsplit, hpath⟩, fun h' hfits => ?_⟩
      obtain ⟨-, path', rest', hsplit', hpath'⟩ := Header.fits_iff.1 hfits
      rw [(afterPath?_eq_some_iff.1 hpath).1, (afterPath?_eq_some_iff.1 hpath').1]
      exact Nat.succ_le_succ (hshort path' rest' h' hsplit' hpath')

/-- **A line is read as the header that it is written as.** -/
theorem header?_eq_some_iff {s : List Char} {h : Header} : header? s = some h ↔ h.Heads s := by
  refine ⟨heads_of_header?, fun hs => ?_⟩
  obtain ⟨h', hread⟩ := hs.1.exists_header?
  rw [hread, (heads_of_header? hread).unique hs]

/-- **A line is read as no header when it has the form of none.** -/
theorem header?_eq_none_iff {s : List Char} : header? s = none ↔ ∀ h : Header, ¬ h.Fits s := by
  constructor
  · intro hnone h hs
    obtain ⟨h', hread⟩ := hs.exists_header?
    cases hnone.symm.trans hread
  · intro hno
    cases hread : header? s with
    | none => rfl
    | some h => exact absurd (heads_of_header? hread).1 (hno h)

end Tsc
end Output
end LintMerge
