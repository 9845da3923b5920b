/-
# Texts in parts

A text is split at a separator, and its parts are joined to the text again. Its lines, and what
is left of it without the white space around it, are parts of it as they stand. A path below a
folder is regular when no part of it between slashes is empty or a dot: then it neither
starts nor ends with a slash, and a path below it is regular, too.
-/

import LintMerge.Text.Blank

namespace LintMerge
namespace Text

variable {α : Type} [DecidableEq α]

/-- The parts of a text on both sides of a separator. -/
theorem splitOn_append (sep : α) (s t : List α) :
    splitOn sep (s ++ sep :: t) = splitOn sep s ++ splitOn sep t := by
  induction s with
  | nil => simp [splitOn]
  | cons c s ih =>
    rw [List.cons_append, splitOn, splitOn, ih]
    split
    · rfl
    · cases hs : splitOn sep s with
      | nil => exact absurd hs (splitOn_ne_nil sep s)
      | cons part more => rfl

/-- A text without the separator is one part. -/
theorem splitOn_of_not_mem {sep : α} {s : List α} (h : sep ∉ s) : splitOn sep s = [s] := by
  induction s with
  | nil => rfl
  | cons c s ih =>
    rw [List.mem_cons, not_or] at h
    rw [splitOn, if_neg (Ne.symm h.1), ih h.2]

/-- The first part of a text that starts with some characters other than the separator. -/
theorem splitOn_append_of_not_mem {sep : Char} {s : List Char} (h : sep ∉ s) (t : List Char) :
    ∃ part more, splitOn sep t = part :: more ∧ splitOn sep (s ++ t) = (s ++ part) :: more := by
  induction s with
  | nil =>
    cases ht : splitOn sep t with
    | nil => exact absurd ht (splitOn_ne_nil sep t)
    | cons part more => exact ⟨part, more, rfl, ht⟩
  | cons c s ih =>
    rw [List.mem_cons, not_or] at h
    obtain ⟨part, more, ht, hst⟩ := ih h.2
    refine ⟨part, more, ht, ?_⟩
    rw [List.cons_append, splitOn, if_neg (Ne.symm h.1), hst]
    rfl

/-- The separator does not occur in a part. -/
theorem not_mem_of_mem_splitOn {sep : Char} {s part : List Char} (h : part ∈ splitOn sep s) : sep ∉ part := by
  induction s generalizing part with
  | nil =>
    rw [List.mem_singleton.1 h]
    exact List.not_mem_nil
  | cons c s ih =>
    rw [splitOn] at h
    split at h
    · rcases List.mem_cons.1 h with rfl | h
      · exact List.not_mem_nil
      · exact ih h
    · next hc =>
      split at h
      · next hnil => exact absurd hnil (splitOn_ne_nil sep s)
      · next first more hs =>
        rcases List.mem_cons.1 h with rfl | h
        · rw [List.mem_cons, not_or]
          exact ⟨Ne.symm hc, ih (hs ▸ List.mem_cons_self)⟩
        · exact ih (hs ▸ List.mem_cons_of_mem _ h)

/-- A part consists of characters of the text. -/
theorem subset_of_mem_splitOn {sep : α} {s part : List α}
    (h : part ∈ splitOn sep s) : part ⊆ s := by
  induction s generalizing part with
  | nil =>
    rw [List.mem_singleton.1 h]
    exact List.nil_subset _
  | cons c s ih =>
    rw [splitOn] at h
    split at h
    · rcases List.mem_cons.1 h with rfl | h
      · exact List.nil_subset _
      · exact List.Subset.trans (ih h) (List.subset_cons_self _ _)
    · split at h
      · next hnil => exact absurd hnil (splitOn_ne_nil sep s)
      · next first more hs =>
        rcases List.mem_cons.1 h with rfl | h
        · exact List.cons_subset_cons _ (ih (hs ▸ List.mem_cons_self))
        · exact List.Subset.trans (ih (hs ▸ List.mem_cons_of_mem _ h)) (List.subset_cons_self _ _)

/-- A text between two separators is a part. -/
theorem mem_splitOn_of_cut {sep : Char} {a b e : List Char} (ha : a = [] ∨ a.getLast? = some sep)
    (hb : sep ∉ b) (he : e = [] ∨ e.head? = some sep) : b ∈ splitOn sep (a ++ (b ++ e)) := by
  have hcut : b ∈ splitOn sep (b ++ e) := by
    rcases he with rfl | he
    · rw [List.append_nil, splitOn_of_not_mem hb]
      exact List.mem_singleton_self b
    · obtain ⟨e', rfl⟩ := List.head?_eq_some_iff.1 he
      rw [splitOn_append, splitOn_of_not_mem hb]
      exact List.mem_append_left _ (List.mem_singleton_self b)
  rcases ha with rfl | ha
  · exact hcut
  · obtain ⟨a', rfl⟩ := List.getLast?_eq_some_iff.1 ha
    rw [List.append_assoc, List.singleton_append, splitOn_append]
    exact List.mem_append_right _ hcut

theorem joinWith_cons_cons {α : Type} (sep part part' : List α) (more : List (List α)) :
    joinWith sep (part :: part' :: more) = part ++ sep ++ joinWith sep (part' :: more) := rfl

/-- The first part starts the text that parts are joined to. -/
theorem part_isPrefix_joinWith (sep part : List Char) (more : List (List Char)) :
    part <+: joinWith sep (part :: more) := by
  cases more with
  | nil => exact List.prefix_rfl
  | cons part' more =>
    rw [joinWith_cons_cons, List.append_assoc]
    exact List.prefix_append _ _

/-- Parts are joined to the text that was split. -/
theorem joinWith_splitOn (sep : α) (s : List α) : joinWith [sep] (splitOn sep s) = s := by
  induction s with
  | nil => rfl
  | cons c s ih =>
    rw [splitOn]
    cases hs : splitOn sep s with
    | nil => exact absurd hs (splitOn_ne_nil sep s)
    | cons part more =>
      rw [hs] at ih
      split
      · next hc =>
        rw [joinWith_cons_cons, ih, hc]
        rfl
      · cases more with
        | nil => exact congrArg (c :: ·) ih
        | cons part' more => exact congrArg (c :: ·) ih

/-- A text that is joined from parts is split into what the parts are split into. -/
theorem splitOn_joinWith (sep : α) {parts : List (List α)} (hne : parts ≠ []) :
    splitOn sep (joinWith [sep] parts) = parts.flatMap (splitOn sep) := by
  induction parts with
  | nil => exact absurd rfl hne
  | cons part more ih =>
    cases more with
    | nil => rw [List.flatMap_singleton]; rfl
    | cons part' more =>
      rw [joinWith_cons_cons, List.append_assoc, List.singleton_append, splitOn_append,
        ih (List.cons_ne_nil _ _)]
      rfl

theorem joinWith_append {α : Type} (sep : List α) {parts more : List (List α)} (hne : parts ≠ [])
    (hmore : more ≠ []) : joinWith sep (parts ++ more) = joinWith sep parts ++ sep ++ joinWith sep more := by
  induction parts with
  | nil => exact absurd rfl hne
  | cons part rest ih =>
    cases rest with
    | nil =>
      obtain ⟨first, others, rfl⟩ := List.exists_cons_of_ne_nil hmore
      rfl
    | cons part' rest =>
      rw [List.cons_append, List.cons_append, joinWith_cons_cons, ← List.cons_append,
        ih (List.cons_ne_nil _ _), joinWith_cons_cons]
      simp only [List.append_assoc]

/-- **A text starts with some parts** when it is these parts or goes on from them after a separator. -/
theorem isPrefix_splitOn_iff {sep : α} {parts : List (List α)} {s : List α} (hne : parts ≠ [])
    (hparts : ∀ part ∈ parts, sep ∉ part) :
    parts <+: splitOn sep s ↔ s = joinWith [sep] parts ∨ ∃ rest, s = joinWith [sep] parts ++ sep :: rest := by
  have hsplit : splitOn sep (joinWith [sep] parts) = parts := by
    rw [splitOn_joinWith sep hne, List.flatMap_def,
      List.map_congr_left fun part hpart => splitOn_of_not_mem (hparts part hpart), ← List.flatMap_def,
      List.flatMap_singleton']
  constructor
  · rintro ⟨more, hmore⟩
    have hs : s = joinWith [sep] (parts ++ more) := by rw [hmore, joinWith_splitOn]
    cases more with
    | nil => exact .inl (by rw [hs, List.append_nil])
    | cons part more =>
      refine .inr ⟨joinWith [sep] (part :: more), ?_⟩
      rw [hs, joinWith_append _ hne (List.cons_ne_nil _ _), List.append_assoc, List.singleton_append]
  · rintro (rfl | ⟨rest, rfl⟩)
    · exact hsplit.symm ▸ List.prefix_rfl
    · rw [splitOn_append, hsplit]
      exact List.prefix_append _ _

/-- A text has one part more than it has separators. -/
theorem length_splitOn (sep : Char) (s : List Char) : (splitOn sep s).length = s.count sep + 1 := by
  induction s with
  | nil => rfl
  | cons c s ih =>
    rw [splitOn]
    split
    · next hc =>
      rw [List.length_cons, ih, hc, List.count_cons_self]
    · next hc =>
      rw [List.count_cons_of_ne hc, ← ih]
      cases hs : splitOn sep s with
      | nil => exact absurd hs (splitOn_ne_nil sep s)
      | cons part more => rfl

/-- The last part is empty only if nothing follows the last separator. -/
theorem getLast?_of_splitOn {sep : Char} {s : List Char} (h : (splitOn sep s).getLast? = some []) :
    s = [] ∨ s.getLast? = some sep := by
  induction s with
  | nil => exact .inl rfl
  | cons c s ih =>
    refine .inr ?_
    rw [List.getLast?_cons]
    rw [splitOn] at h
    split at h
    · next hc =>
      rw [List.getLast?_cons_of_ne_nil (splitOn_ne_nil sep s)] at h
      rcases ih h with rfl | hs
      · exact congrArg some hc
      · rw [hs]
        rfl
    · cases hs : splitOn sep s with
      | nil => exact absurd hs (splitOn_ne_nil sep s)
      | cons part more =>
        rw [hs] at h ih
        cases more with
        | nil => cases h
        | cons part' more =>
          rw [List.getLast?_cons_cons] at h ih
          rcases ih h with rfl | hs'
          · cases hs
          · rw [hs']
            rfl

/-- A path below a folder, as it is written: no part of it is empty or a dot. -/
def Regular (s : List Char) : Prop := ∀ part ∈ splitOn '/' s, part ≠ [] ∧ part ≠ ['.']

theorem Regular.append {s t : List Char} (hs : Regular s) (ht : Regular t) : Regular (s ++ '/' :: t) := by
  intro part hpart
  rw [splitOn_append, List.mem_append] at hpart
  exact hpart.elim (hs part) (ht part)

theorem Regular.left {s t : List Char} (h : Regular (s ++ '/' :: t)) : Regular s := fun part hpart =>
  h part (by rw [splitOn_append]; exact List.mem_append_left _ hpart)

theorem Regular.right {s t : List Char} (h : Regular (s ++ '/' :: t)) : Regular t := fun part hpart =>
  h part (by rw [splitOn_append]; exact List.mem_append_right _ hpart)

theorem Regular.ne_nil {s : List Char} (hs : Regular s) : s ≠ [] := by
  rintro rfl
  exact (hs [] (by simp [splitOn])).1 rfl

theorem Regular.head?_ne {s : List Char} (hs : Regular s) : s.head? ≠ some '/' := by
  intro h
  obtain ⟨t, rfl⟩ := List.head?_eq_some_iff.1 h
  exact (hs [] (by simp [splitOn])).1 rfl

theorem Regular.getLast?_ne {s : List Char} (hs : Regular s) : s.getLast? ≠ some '/' := by
  intro h
  obtain ⟨t, rfl⟩ := List.getLast?_eq_some_iff.1 h
  exact (hs [] (by rw [splitOn_append]; simp [splitOn])).1 rfl

/-- A text of which the last character is not white space is whole without the white space at its
end. -/
theorem trimEnd_of_getLast? {s : List Char} (h : ∀ c ∈ s.getLast?, isBlank c = false) :
    trimEnd s = s := by
  rw [← List.head?_reverse] at h
  rw [trimEnd]
  cases hr : s.reverse with
  | nil => rw [List.dropWhile_nil, List.reverse_nil, List.reverse_eq_nil_iff.1 hr]
  | cons c r =>
    rw [hr] at h
    rw [List.dropWhile_cons_of_neg (by rw [h c rfl]; exact Bool.false_ne_true), ← hr,
      List.reverse_reverse]

/-- A text between two characters that are not white space is whole without the white space around
it. -/
theorem trim_of_ends {c d : Char} (s : List Char) (hc : isBlank c = false) (hd : isBlank d = false) :
    trim (c :: (s ++ [d])) = c :: (s ++ [d]) := by
  have hstart : trimStart (c :: (s ++ [d])) = c :: (s ++ [d]) :=
    List.dropWhile_cons_of_neg (by rw [hc]; exact Bool.false_ne_true)
  rw [trim, hstart]
  refine trimEnd_of_getLast? fun e he => ?_
  rw [← List.cons_append, List.getLast?_concat] at he
  exact Option.some.inj he ▸ hd

/-- What is left of a text without the white space at its end starts it. -/
theorem trimEnd_isPrefix (s : List Char) : trimEnd s <+: s := by
  rw [trimEnd, ← List.reverse_suffix, List.reverse_reverse]
  exact List.dropWhile_suffix _

/-- What is left of a text without the white space around it is a part of the text. -/
theorem trim_infix (s : List Char) : trim s <:+: s :=
  (trimEnd_isPrefix (trimStart s)).isInfix.trans (List.dropWhile_suffix _).isInfix

/-- A text starts with its first line. -/
theorem prefix_of_lines {s line : List Char} {more : List (List Char)} (h : lines s = line :: more) :
    line <+: s := by
  induction s using lines.induct generalizing line more with
  | case1 => cases h
  | case2 rest ih =>
    cases h
    exact List.nil_prefix
  | case3 c rest hpair hc ih =>
    rw [lines, if_pos hc] at h
    · cases h
      exact List.nil_prefix
    · exact hpair
  | case4 c rest hpair hc hnil ih =>
    rw [lines, if_neg hc, hnil] at h
    · cases h
      exact List.prefix_append [c] rest
    · exact hpair
  | case5 c rest hpair hc first more' hcons ih =>
    rw [lines, if_neg hc, hcons] at h
    · cases h
      exact (List.prefix_cons_inj c).2 (ih hcons)
    · exact hpair

/-- A text that holds no end of a line. -/
def OneLine (s : List Char) : Prop := ∀ c ∈ s, isBoundary c = false

instance (s : List Char) : Decidable (OneLine s) := List.decidableBAll _ s

theorem oneLine_append {s t : List Char} : OneLine (s ++ t) ↔ OneLine s ∧ OneLine t :=
  List.forall_mem_append

theorem oneLine_cons {c : Char} {s : List Char} : OneLine (c :: s) ↔ isBoundary c = false ∧ OneLine s :=
  List.forall_mem_cons

/-- The first line of a text is what stands before the first line feed. -/
theorem lines_append_newline {line : List Char} (h : OneLine line) (rest : List Char) :
    lines (line ++ '\n' :: rest) = line :: lines rest := by
  induction line with
  | nil =>
    rw [List.nil_append, lines, if_pos (by decide)]
    exact fun _ h => absurd h (by decide)
  | cons c line ih =>
    have hc : isBoundary c = false := h c List.mem_cons_self
    have hline : OneLine line := fun d hd => h d (List.mem_cons_of_mem _ hd)
    rw [List.cons_append, lines, if_neg (by rw [hc]; decide), ih hline]
    rintro _ rfl
    cases hc

/-- Lines are read as they are written, each of them ended by a line feed. -/
theorem lines_flatMap_newline {ls : List (List Char)} (h : ∀ line ∈ ls, OneLine line) :
    lines (ls.flatMap (· ++ ['\n'])) = ls := by
  induction ls with
  | nil => rfl
  | cons line ls ih =>
    rw [List.flatMap_cons, List.append_assoc, List.singleton_append,
      lines_append_newline (h line List.mem_cons_self), ih fun l hl => h l (List.mem_cons_of_mem _ hl)]

/-- No line of a text holds an end of a line. -/
theorem oneLine_of_mem_lines {s line : List Char} (h : line ∈ lines s) : OneLine line := by
  have hnil : OneLine [] := fun _ hc => absurd hc List.not_mem_nil
  induction s using lines.induct generalizing line with
  | case1 => cases h
  | case2 rest ih =>
    rw [lines, List.mem_cons] at h
    rcases h with rfl | h
    · exact hnil
    · exact ih h
  | case3 c rest hpair hc ih =>
    rw [lines, if_pos hc, List.mem_cons] at h
    · rcases h with rfl | h
      · exact hnil
      · exact ih h
    · exact hpair
  | case4 c rest hpair hc hnone ih =>
    rw [lines, if_neg hc, hnone, List.mem_singleton] at h
    · rw [h]
      exact oneLine_cons.2 ⟨Bool.not_eq_true _ ▸ hc, hnil⟩
    · exact hpair
  | case5 c rest hpair hc first more hcons ih =>
    rw [lines, if_neg hc, hcons, List.mem_cons] at h
    · rcases h with rfl | h
      · exact oneLine_cons.2 ⟨Bool.not_eq_true _ ▸ hc, ih (hcons ▸ List.mem_cons_self)⟩
      · exact ih (hcons ▸ List.mem_cons_of_mem _ h)
    · exact hpair

/-- A line of a text is a part of it. -/
theorem infix_of_mem_lines {s line : List Char} (h : line ∈ lines s) : line <:+: s := by
  induction s using lines.induct with
  | case1 => cases h
  | case2 rest ih =>
    rw [lines, List.mem_cons] at h
    rcases h with rfl | h
    · exact List.nil_infix
    · exact (ih h).trans (List.suffix_append ['\r', '\n'] rest).isInfix
  | case3 c rest hpair hc ih =>
    rw [lines, if_pos hc, List.mem_cons] at h
    · rcases h with rfl | h
      · exact List.nil_infix
      · exact (ih h).trans (List.suffix_cons _ _).isInfix
    · exact hpair
  | case4 c rest hpair hc hnil ih =>
    rw [lines, if_neg hc, hnil, List.mem_singleton] at h
    · rw [h]
      exact (List.prefix_append [c] rest).isInfix
    · exact hpair
  | case5 c rest hpair hc first more hcons ih =>
    rw [lines, if_neg hc, hcons, List.mem_cons] at h
    · rcases h with rfl | h
      · exact ((List.prefix_cons_inj c).2 (prefix_of_lines hcons)).isInfix
      · exact (ih (hcons ▸ List.mem_cons_of_mem _ h)).trans (List.suffix_cons _ _).isInfix
    · exact hpair

end Text

end LintMerge
