/-
# What follows from the exclusion of a directory

A pattern that matches a directory matches what lies below it, because what its steps eat
stands at the start of both, and a slash follows in both (`Pattern.weight?_below`). The one
exception is a name with a line feed at its end, which a pattern may leave aside.

A directory is excluded for two more reasons: a pattern matches its path with a slash at
the end, or that of a file of an unlikely name in it. For patterns that end with `**` these
come to the same (`Pattern.weight?_of_deep`); any other pattern may match them by a
character that happens to stand there, and then nothing follows for other files.
-/

import LintMerge.Glob.Exclude
import LintMerge.Proofs.Check.Outcome
import LintMerge.Proofs.Glob.Language
import LintMerge.Proofs.Text.Splitting

namespace LintMerge

namespace Glob

open Text (Regular)

theorem trimSlashes_regular {s : List Char} (hs : Regular s) : trimSlashes s = s := by
  have hfirst : s.dropWhile (· = '/') = s := by
    cases s with
    | nil => rfl
    | cons c s => exact List.dropWhile_cons_of_neg (by simpa using hs.head?_ne)
  have hlast : s.reverse.dropWhile (· = '/') = s.reverse := by
    have hne := hs.getLast?_ne
    rw [← List.head?_reverse] at hne
    cases hr : s.reverse with
    | nil => rfl
    | cons c r =>
      rw [hr] at hne
      exact List.dropWhile_cons_of_neg (by simpa using hne)
  rw [trimSlashes, hfirst, hlast, List.reverse_reverse]

namespace Spec

/-- Nothing is cut off a path below a folder. -/
theorem trimPath_regular {s : List Char} (hs : Regular s) : trimPath s = s := by
  unfold trimPath
  split
  · exact absurd rfl hs.head?_ne
  · next t => exact absurd rfl (hs ['.'] (by simp [Text.splitOn])).2
  · rfl

/-- Nothing is cut off what lies in a folder either, whatever it is. -/
theorem trimPath_regular_append {s t : List Char} (hs : Regular s) :
    trimPath (s ++ '/' :: t) = s ++ '/' :: t := by
  have hfirst : ∀ part more, Text.splitOn '/' (s ++ '/' :: t) = part :: more → part ≠ [] ∧ part ≠ ['.'] := by
    intro part more hsplit
    rw [Text.splitOn_append] at hsplit
    cases hparts : Text.splitOn '/' s with
    | nil => exact absurd hparts (Text.splitOn_ne_nil _ _)
    | cons part' more' =>
      rw [hparts] at hsplit
      obtain ⟨rfl, -⟩ := List.cons.inj hsplit
      exact hs _ (hparts ▸ List.mem_cons_self)
  unfold trimPath
  split
  · next h => exact absurd rfl (hfirst [] _ (by rw [h, Text.splitOn, if_pos rfl])).1
  · next h => exact absurd rfl (hfirst ['.'] _ (by rw [h]; simp [Text.splitOn]; rfl)).2
  · rfl

end Spec

namespace Pattern

/-- What a pattern asks of a path: a slash, any character but a line feed, or a start that its
steps eat and that leaves what its ending accepts. -/
theorem weight?_isSome_cases (p : Pattern) :
    (∀ s, (p.weight? s).isSome = true ↔ '/' ∈ s) ∨
      (∀ s, (p.weight? s).isSome = true ↔ ∃ c ∈ s, c ≠ '\n') ∨
      ∀ s, (p.weight? s).isSome = true ↔
        ∃ c r, Eats (steps p.segments) c ∧ s = c ++ r ∧ (p.ending.weight? r).isSome = true := by
  by_cases h1 : p.segments = [.deep]
  · cases hd : p.directory with
    | true =>
      refine .inl fun s => ?_
      rw [weight?, h1, hd]
      by_cases hs : '/' ∈ s <;> simp [hs]
    | false =>
      refine .inr (.inl fun s => ?_)
      rw [weight?, h1, hd]
      simp
  by_cases h2 : p.segments = [.deep, .any]
  · refine .inr (.inl fun s => ?_)
    rw [weight?, h2]
    simp
  by_cases h3 : p.segments = [.deep, .any, .deep]
  · refine .inl fun s => ?_
    rw [weight?, h3]
    by_cases hs : '/' ∈ s <;> simp [hs]
  · refine .inr (.inr fun s => ?_)
    rw [← weigh?_isSome]
    unfold weight?
    split
    · next h _ => exact absurd h h1
    · next h _ => exact absurd h h1
    · next h => exact absurd h h2
    · next h => exact absurd h h3
    · exact Iff.rfl

/-- **A pattern that matches a directory matches what lies below it**, but for a name that ends
with a line feed. -/
theorem weight?_below {p : Pattern} {d rest : List Char} (h : (p.weight? d).isSome = true)
    (hd : d.getLast? ≠ some '\n') : (p.weight? (d ++ '/' :: rest)).isSome = true := by
  rcases p.weight?_isSome_cases with hp | hp | hp <;> rw [hp] at h ⊢
  · exact List.mem_append_left _ h
  · exact ⟨'/', by simp, by decide⟩
  · obtain ⟨c, r, hc, rfl, hr⟩ := h
    refine ⟨c, r ++ '/' :: rest, hc, List.append_assoc .., ?_⟩
    rw [ending] at hr ⊢
    split
    · next hdeep =>
      rw [if_pos hdeep, Ending.weight?_below_isSome] at hr
      obtain ⟨r', rfl⟩ := List.head?_eq_some_iff.1 hr
      exact Ending.weight?_below_isSome.2 rfl
    · next hname =>
      rw [if_neg hname, Ending.weight?_name_isSome] at hr
      rw [Ending.weight?_name_isSome]
      rcases hr with hr | rfl | rfl
      · obtain ⟨r', rfl⟩ := List.head?_eq_some_iff.1 hr
        exact .inl rfl
      · exact .inl rfl
      · exact absurd (by simp) hd

/-- Two ways to cut a text before a slash: when no slash follows the second cut, the first is no
later. -/
theorem exists_append_of_cut {c r d n : List Char} (h : c ++ '/' :: r = d ++ '/' :: n) (hn : '/' ∉ n) :
    ∃ a, d = c ++ a ∧ (a = [] ∨ a.head? = some '/') := by
  rcases List.append_eq_append_iff.1 h with ⟨a, rfl, ha⟩ | ⟨b, rfl, hb⟩
  · cases a with
    | nil => exact ⟨[], rfl, .inl rfl⟩
    | cons x a =>
      rw [List.cons_append] at ha
      obtain ⟨rfl, -⟩ := List.cons.inj ha
      exact ⟨'/' :: a, rfl, .inr rfl⟩
  · cases b with
    | nil => exact ⟨[], by simp, .inl rfl⟩
    | cons x b =>
      rw [List.cons_append] at hb
      obtain ⟨-, rfl⟩ := List.cons.inj hb
      exact absurd (by simp) hn

/-- **Patterns that end with `**`** match all that lies in a directory when they match the
directory, with or without a slash after it, or any one file of it. -/
theorem weight?_of_deep {p : Pattern} (hp : p.segments.getLast? = some .deep) {d y rest : List Char}
    (hy : y = [] ∨ ∃ n, '/' ∉ n ∧ y = '/' :: n) (h : (p.weight? (d ++ y)).isSome = true) :
    (p.weight? (d ++ '/' :: rest)).isSome = true := by
  rcases p.weight?_isSome_cases with hcase | hcase | hcase <;> rw [hcase] at h ⊢
  · exact List.mem_append_right _ List.mem_cons_self
  · exact ⟨'/', by simp, by decide⟩
  · obtain ⟨c, r, hc, hcr, hr⟩ := h
    rw [ending, if_pos hp, Ending.weight?_below_isSome] at hr
    obtain ⟨r', rfl⟩ := List.head?_eq_some_iff.1 hr
    obtain ⟨a, rfl, ha⟩ : ∃ a, d = c ++ a ∧ (a = [] ∨ a.head? = some '/') := by
      rcases hy with rfl | ⟨n, hn, rfl⟩
      · exact ⟨'/' :: r', by rw [← hcr, List.append_nil], .inr rfl⟩
      · exact exists_append_of_cut hcr.symm hn
    refine ⟨c, a ++ '/' :: rest, hc, List.append_assoc .., ?_⟩
    rw [ending, if_pos hp, Ending.weight?_below_isSome]
    rcases ha with rfl | ha
    · rfl
    · obtain ⟨a', rfl⟩ := List.head?_eq_some_iff.1 ha
      rfl

/-- What starts a line without the white space at its end starts the line. -/
theorem head?_trimLine {s : List Char} {c : Char} (h : (trimLine s).head? = some c) :
    s.head? = some c := by
  have hstart : trimLine s <+: s := by
    unfold trimLine
    split
    · exact List.prefix_refl s
    · exact Text.trimEnd_isPrefix s
  obtain ⟨t, ht⟩ := hstart
  obtain ⟨s', hs'⟩ := List.head?_eq_some_iff.1 h
  rw [← ht, hs']
  rfl

/-- The pattern of a line includes again only if the line starts with `!`. -/
theorem negated_of_ofLine {line : String} {p : Pattern} (h : ofLine line = .ok (some p))
    (hline : line.toList.head? ≠ some '!') : p.negated = false := by
  have hmark : (unmarked (trimLine line.toList)).1 = false := by
    unfold unmarked
    split
    · next hs => exact absurd (head?_trimLine (hs ▸ rfl)) hline
    · rfl
  unfold ofLine at h
  dsimp only at h
  split at h
  · cases h
  · cases h
  · cases h
  · split at h
    · cases h
    · split at h
      · cases h
      · cases h
        exact hmark

end Pattern

namespace Spec

/-- Some pattern matches a path. -/
def Matches (spec : Spec) (s : List Char) : Prop := ∃ p ∈ spec.patterns, (p.weight? s).isSome = true

/-- No pattern includes again what others exclude. -/
def Positive (spec : Spec) : Prop := ∀ p ∈ spec.patterns, p.negated = false

variable {spec : Spec} {d : List Char}

/-- The patterns of a list are those of its lines. -/
theorem exists_line_of_mem_build {patterns : List String} (h : build patterns = .ok spec)
    {p : Pattern} (hp : p ∈ spec.patterns) : ∃ line ∈ lines patterns, Pattern.ofLine line = .ok (some p) := by
  obtain ⟨found, hfound, h⟩ := Faulty.bind_eq_ok.1 h
  cases Faulty.pure_eq_ok.1 h
  obtain ⟨_, hmem, rfl⟩ := List.mem_filterMap.1 hp
  exact Faulty.exists_of_mem_mapM hfound hmem

/-- **Lines without `!`** give patterns that all include. -/
theorem positive_of_build {patterns : List String} (h : build patterns = .ok spec)
    (hlines : ∀ line ∈ lines patterns, line.toList.head? ≠ some '!') : spec.Positive := by
  intro p hp
  obtain ⟨line, hline, hofLine⟩ := exists_line_of_mem_build h hp
  exact Pattern.negated_of_ofLine hofLine (hlines line hline)

theorem isMatch_iff (hspec : spec.Positive) (s : List Char) :
    spec.isMatch (String.ofList s) = true ↔ spec.Matches (trimPath s) := by
  rw [isMatch_of_positive hspec, List.any_eq_true, String.toList_ofList]
  exact Iff.rfl

/-- A path below the root is excluded when it is matched. -/
theorem excludes_file {path : String} (hpath : Regular path.toList) :
    spec.excludes path = spec.isMatch path := by
  have hne : (path != "") = true := by
    rw [bne_iff_ne, Ne, ← String.toList_eq_nil_iff]
    exact hpath.ne_nil
  rw [excludes, trimSlashes_regular hpath, String.ofList_toList, hne, Bool.true_and, Bool.false_and,
    Bool.or_false]

/-- A directory is excluded when it is matched as such, as a directory, or by a file in it. -/
theorem excludes_directory {path : String} (hspec : spec.Positive) (hpath : Regular path.toList) :
    spec.excludes path true = true ↔ spec.isMatch path = true ∨
      spec.Matches (path.toList ++ ['/']) ∨ spec.Matches (path.toList ++ '/' :: probeName.toList) := by
  have hne : (path != "") = true := by
    rw [bne_iff_ne, Ne, ← String.toList_eq_nil_iff]
    exact hpath.ne_nil
  have hslash : path ++ "/" = String.ofList (path.toList ++ ['/']) := by
    rw [String.ofList_append, String.ofList_toList]
  have hprobe : path ++ "/" ++ probeName = String.ofList (path.toList ++ '/' :: probeName.toList) := by
    have hcons : path.toList ++ '/' :: probeName.toList = path.toList ++ ['/'] ++ probeName.toList :=
      List.append_cons ..
    rw [hslash, hcons, @String.ofList_append (path.toList ++ ['/']), String.ofList_toList]
  rw [excludes, trimSlashes_regular hpath, String.ofList_toList, hne, Bool.true_and, Bool.true_and,
    hprobe, hslash, Bool.or_eq_true, Bool.or_eq_true, isMatch_iff hspec (_ ++ ['/']), isMatch_iff hspec,
    trimPath_regular_append hpath, trimPath_regular_append hpath]

/-- What matches a path is said without regard to how it is cut. -/
theorem isMatch_regular {path : String} (hspec : spec.Positive) (hpath : Regular path.toList) :
    spec.isMatch path = true ↔ spec.Matches path.toList := by
  rw [← trimPath_regular hpath, ← isMatch_iff hspec, String.ofList_toList]

/-- What lies in a directory that is matched as such is matched, too. -/
theorem Matches.below (h : spec.Matches d) (hd : d.getLast? ≠ some '\n') (rest : List Char) :
    spec.Matches (d ++ '/' :: rest) := by
  obtain ⟨p, hp, hw⟩ := h
  exact ⟨p, hp, Pattern.weight?_below hw hd⟩

/-- **Nothing is lost by patterns that end with `**`**: what lies in a directory that they exclude
is matched, too. -/
theorem matches_of_excludes_deep {path : String} (hspec : spec.Positive)
    (hdeep : ∀ p ∈ spec.patterns, p.segments.getLast? = some .deep) (hpath : Regular path.toList)
    (h : spec.excludes path true = true) (rest : List Char) :
    spec.Matches (path.toList ++ '/' :: rest) := by
  rcases (excludes_directory hspec hpath).1 h with h | ⟨p, hp, hw⟩ | ⟨p, hp, hw⟩
  · obtain ⟨p, hp, hw⟩ := (isMatch_regular hspec hpath).1 h
    exact ⟨p, hp, Pattern.weight?_of_deep (hdeep p hp) (.inl rfl) (by rwa [List.append_nil])⟩
  · exact ⟨p, hp, Pattern.weight?_of_deep (hdeep p hp) (.inr ⟨[], List.not_mem_nil, rfl⟩) hw⟩
  · exact ⟨p, hp, Pattern.weight?_of_deep (hdeep p hp) (.inr ⟨_, by decide, rfl⟩) hw⟩

end Spec
end Glob
end LintMerge
