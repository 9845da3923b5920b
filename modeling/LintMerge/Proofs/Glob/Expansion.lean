/-
# How braces are worked off

A list of patterns is worked off from its start: in the first of them the leftmost group without a
group inside is replaced by each of its alternatives, and what comes of it waits in its place
(`Work.next?`). This comes to an end for every text, as an alternative in the place of a group has
an opening brace less (`count_lt_of_group?`), and it ends with what the pattern is expanded to
(`Work.ends`). What is found has no group: a group is found wherever an opening brace stands before
a closing one (`group?_eq_none_iff`).
-/

import LintMerge.Glob.Braces
import LintMerge.Proofs.Text.Splitting
import Mathlib.Data.List.Basic

namespace LintMerge
namespace Glob

variable {s head inner tail option : List Char}

/-- Whether a text holds no brace. -/
def Braceless (s : List Char) : Prop := ∀ c ∈ s, isBrace c = false

theorem Braceless.not_mem_open (h : Braceless s) : '\x7b' ∉ s := fun hmem => by cases h _ hmem

theorem Braceless.not_mem_close (h : Braceless s) : '\x7d' ∉ s := fun hmem => by cases h _ hmem

/-- The first brace of a text, if it has one. -/
theorem braceless_or (s : List Char) : Braceless s ∨
    (∃ inner tail, Braceless inner ∧ s = inner ++ '\x7d' :: tail) ∨
    ∃ inner tail, Braceless inner ∧ s = inner ++ '\x7b' :: tail := by
  have hfree (s : List Char) : Braceless (s.takeWhile (!isBrace ·)) := fun c hc => by
    simpa using List.all_eq_true.1 List.all_takeWhile c hc
  have hs := List.takeWhile_append_dropWhile (p := (!isBrace ·)) (l := s)
  have hfirst := List.head?_dropWhile_not (!isBrace ·) s
  cases hdrop : s.dropWhile (!isBrace ·) with
  | nil =>
    rw [hdrop, List.append_nil] at hs
    exact .inl (hs ▸ hfree s)
  | cons b tail =>
    rw [hdrop] at hs hfirst
    simp only [List.head?_cons, isBrace, Bool.not_eq_false', Bool.or_eq_true, decide_eq_true_eq] at hfirst
    rcases hfirst with rfl | rfl
    · exact .inr (.inr ⟨_, tail, hfree s, hs.symm⟩)
    · exact .inr (.inl ⟨_, tail, hfree s, hs.symm⟩)

theorem Braceless.takeWhile_append (h : Braceless inner) (hb : isBrace b = true) :
    (inner ++ b :: tail).takeWhile (!isBrace ·) = inner := by
  rw [List.takeWhile_append_of_pos fun c hc => by simp [h c hc],
    List.takeWhile_cons_of_neg (by simp [hb]), List.append_nil]

/-- A group that is found behind a character. -/
def shifted (c : Char) (g : List Char × List Char × List Char) : List Char × List Char × List Char :=
  (c :: g.1, g.2)

/-- A character opens the group that is found, or it stands before it. -/
theorem group?_cons (c : Char) (s : List Char) : group? (c :: s) =
    if c = '\x7b' then
      match s.drop (s.takeWhile (!isBrace ·)).length with
      | '\x7d' :: tail => some ([], s.takeWhile (!isBrace ·), tail)
      | _ => (group? s).map (shifted c)
    else (group? s).map (shifted c) := rfl

theorem group?_cons_of_ne {c : Char} (h : c ≠ '\x7b') : group? (c :: s) = (group? s).map (shifted c) := by
  rw [group?_cons, if_neg h]

/-- A brace that is closed before another opens makes a group. -/
theorem group?_open_of_closed (h : Braceless inner) :
    group? ('\x7b' :: (inner ++ '\x7d' :: tail)) = some ([], inner, tail) := by
  rw [group?_cons, if_pos rfl, h.takeWhile_append (by decide), List.drop_left]
  rfl

/-- A brace before another one that opens makes none. -/
theorem group?_open_of_opened (h : Braceless inner) :
    group? ('\x7b' :: (inner ++ '\x7b' :: tail)) =
      (group? (inner ++ '\x7b' :: tail)).map (shifted '\x7b') := by
  rw [group?_cons, if_pos rfl, h.takeWhile_append (by decide), List.drop_left]
  rfl

/-- Nor does a brace that is the last one. -/
theorem group?_open_of_braceless (h : Braceless s) :
    group? ('\x7b' :: s) = (group? s).map (shifted '\x7b') := by
  have htake : s.takeWhile (!isBrace ·) = s := by
    rw [← List.append_nil s, List.takeWhile_append_of_pos fun c hc => by simp [h c hc]]
    rfl
  rw [group?_cons, if_pos rfl, htake, List.drop_length]

/-- **Where there is no group** no opening brace stands before a closing one. -/
theorem group?_eq_none_iff : group? s = none ↔ ¬ ['\x7b', '\x7d'].Sublist s := by
  induction s with
  | nil => exact iff_of_true rfl (fun h => nomatch h)
  | cons c s ih =>
    rw [List.cons_sublist_cons', List.singleton_sublist]
    by_cases hc : '\x7b' = c
    · subst hc
      rcases braceless_or s with h | ⟨inner, tail, h, rfl⟩ | ⟨inner, tail, h, rfl⟩
      · rw [group?_open_of_braceless h, Option.map_eq_none_iff, ih]
        simp [h.not_mem_close]
      · rw [group?_open_of_closed h]
        simp
      · rw [group?_open_of_opened h, Option.map_eq_none_iff, ih, or_iff_left_of_imp]
        rintro ⟨-, hmem⟩
        have htail := (List.mem_cons.1 ((List.mem_append.1 hmem).resolve_left h.not_mem_close))
        exact .trans (List.cons_sublist_cons.2 (List.singleton_sublist.2 (htail.resolve_left (by decide))))
          (List.sublist_append_right _ _)
    · rw [group?_cons_of_ne (Ne.symm hc), Option.map_eq_none_iff, ih, or_iff_left fun h => hc h.1]

/-- What is found is a group without a brace inside. -/
theorem text_of_group? (h : group? s = some (head, inner, tail)) :
    s = head ++ '\x7b' :: (inner ++ '\x7d' :: tail) ∧ Braceless inner := by
  induction s generalizing head with
  | nil => cases h
  | cons c s ih =>
    have hlater (h : (group? s).map (shifted c) = some (head, inner, tail)) :
        c :: s = head ++ '\x7b' :: (inner ++ '\x7d' :: tail) ∧ Braceless inner := by
      obtain ⟨⟨head, inner, tail⟩, hg, heq⟩ := Option.map_eq_some_iff.1 h
      cases heq
      obtain ⟨hs, hinner⟩ := ih hg
      exact ⟨hs ▸ rfl, hinner⟩
    by_cases hc : c = '\x7b'
    · subst hc
      rcases braceless_or s with hs | ⟨inner, tail, hs, rfl⟩ | ⟨inner, tail, hs, rfl⟩
      · exact hlater (group?_open_of_braceless hs ▸ h)
      · rw [group?_open_of_closed hs] at h
        cases h
        exact ⟨rfl, hs⟩
      · exact hlater (group?_open_of_opened hs ▸ h)
    · exact hlater (group?_cons_of_ne hc ▸ h)

/-- A group without a brace inside is found if none is closed in front of it. -/
theorem group?_of_leftmost (hhead : '\x7d' ∉ head) (hinner : Braceless inner) :
    group? (head ++ '\x7b' :: (inner ++ '\x7d' :: tail)) = some (head, inner, tail) := by
  induction head with
  | nil => exact group?_open_of_closed hinner
  | cons c head ih =>
    rw [List.mem_cons, not_or] at hhead
    by_cases hc : c = '\x7b'
    · subst hc
      have hopen : group? ('\x7b' :: (head ++ '\x7b' :: (inner ++ '\x7d' :: tail))) =
          (group? (head ++ '\x7b' :: (inner ++ '\x7d' :: tail))).map (shifted '\x7b') := by
        rcases braceless_or head with h | ⟨i, t, h, rfl⟩ | ⟨i, t, h, rfl⟩
        · exact group?_open_of_opened h
        · exact absurd (List.mem_append_right _ List.mem_cons_self) hhead.2
        · rw [List.append_assoc, List.cons_append]
          exact group?_open_of_opened h
      rw [List.cons_append, hopen, ih hhead.2]
      rfl
    · rw [List.cons_append, group?_cons_of_ne hc, ih hhead.2]
      rfl

/-- An option in the place of a group has an opening brace less. -/
theorem count_lt_of_group? (h : group? s = some (head, inner, tail))
    (hoption : option ∈ Text.splitOn ',' inner) :
    (head ++ option ++ tail).count '\x7b' < s.count '\x7b' := by
  obtain ⟨rfl, hinner⟩ := text_of_group? h
  have hfree : option.count '\x7b' = 0 := List.count_eq_zero.2 fun hmem =>
    hinner.not_mem_open (Text.subset_of_mem_splitOn hoption hmem)
  rw [List.count_append, List.count_append, hfree, List.count_append, List.count_cons_self,
    List.count_append, List.count_cons_of_ne (by decide)]
  omega

/-! ### The work on a list of patterns -/

/-- Patterns that are worked off: those that wait, and those in which no group is left. -/
structure Work where
  waiting : List (List Char)
  finished : List (List Char)

/-- What is left after the first of the patterns that wait: if it has a group, its alternatives wait
in its place. -/
def Work.next? : Work → Option Work
  | ⟨[], _⟩ => none
  | ⟨s :: waiting, finished⟩ =>
    match group? s with
    | none => some ⟨waiting, finished ++ [s]⟩
    | some (head, inner, tail) =>
      some ⟨(Text.splitOn ',' inner).map (head ++ · ++ tail) ++ waiting, finished⟩

/-- How work ends: with nothing left that waits. -/
inductive Work.Ends : Work → List (List Char) → Prop
  | idle {w : Work} (h : w.next? = none) : Ends w w.finished
  | round {w w' : Work} {found : List (List Char)} (h : w.next? = some w') (later : Ends w' found) :
      Ends w found

theorem expandFrom_of_none (h : group? s = none) (n : Nat) : expandFrom n s = [s] := by
  cases n with
  | zero => rfl
  | succ n => rw [expandFrom, h]

theorem group?_of_count (h : s.count '\x7b' ≤ 0) : group? s = none :=
  group?_eq_none_iff.2 fun hsub =>
    List.count_eq_zero.1 (Nat.le_zero.1 h) (hsub.subset List.mem_cons_self)

namespace Work

variable {waiting finished found : List (List Char)} {n : Nat}

/-- A pattern without a group is finished. -/
theorem Ends.of_none (h : group? s = none) (later : Ends ⟨waiting, finished ++ [s]⟩ found) :
    Ends ⟨s :: waiting, finished⟩ found :=
  .round (by rw [next?, h]) later

/-- Patterns that wait in front of others are finished before them. -/
theorem Ends.append {ss : List (List Char)} (f : List Char → List (List Char))
    (hone : ∀ s ∈ ss, ∀ waiting finished, Ends ⟨waiting, finished ++ f s⟩ found →
      Ends ⟨s :: waiting, finished⟩ found)
    (later : Ends ⟨waiting, finished ++ ss.flatMap f⟩ found) :
    Ends ⟨ss ++ waiting, finished⟩ found := by
  induction ss generalizing finished with
  | nil => simpa using later
  | cons s ss ih =>
    refine hone s List.mem_cons_self _ _ (ih (fun t ht => hone t (List.mem_cons_of_mem _ ht)) ?_)
    rwa [List.append_assoc, ← List.flatMap_cons]

/-- **The work on a pattern finishes what the pattern stands for**, by induction on the opening
braces that it has at most. -/
theorem Ends.of_count (hn : s.count '\x7b' ≤ n)
    (later : Ends ⟨waiting, finished ++ expandFrom n s⟩ found) :
    Ends ⟨s :: waiting, finished⟩ found := by
  induction n generalizing s waiting finished with
  | zero => exact .of_none (group?_of_count hn) later
  | succ n ih =>
    cases h : group? s with
    | none => exact .of_none h (expandFrom_of_none h _ ▸ later)
    | some g =>
      obtain ⟨head, inner, tail⟩ := g
      refine .round (by rw [next?, h]) (.append (expandFrom n) (fun t ht waiting finished => ?_) ?_)
      · obtain ⟨option, hoption, rfl⟩ := List.mem_map.1 ht
        exact ih (Nat.le_of_lt_succ (Nat.lt_of_lt_of_le (count_lt_of_group? h hoption) hn))
      · rw [List.flatMap_map]
        rwa [expandFrom, h] at later

/-- The work on one pattern ends with what it stands for. -/
theorem ends (s : List Char) : Ends ⟨[s], []⟩ (expandFrom (s.count '\x7b') s) :=
  .of_count (Nat.le_refl _) (.idle rfl)

end Work

/-- In what is found no group is left. -/
theorem group?_of_mem_expandFrom {n : Nat} {x : List Char} (hn : s.count '\x7b' ≤ n)
    (hx : x ∈ expandFrom n s) : group? x = none := by
  induction n generalizing s with
  | zero =>
    obtain rfl : x = s := by simpa [expandFrom] using hx
    exact group?_of_count hn
  | succ n ih =>
    cases h : group? s with
    | none =>
      obtain rfl : x = s := by simpa [expandFrom_of_none h] using hx
      exact h
    | some g =>
      obtain ⟨head, inner, tail⟩ := g
      rw [expandFrom, h] at hx
      obtain ⟨option, hoption, hx⟩ := List.mem_flatMap.1 hx
      exact ih (Nat.le_of_lt_succ (Nat.lt_of_lt_of_le (count_lt_of_group? h hoption) hn)) hx

/-- A text and what comes of it with each of the alternatives in the place of its leftmost group
without a group inside. -/
def Splices (s : List Char) (ts : List (List Char)) : Prop :=
  ∃ head inner tail, s = head ++ '\x7b' :: (inner ++ '\x7d' :: tail) ∧ '\x7d' ∉ head ∧
    Braceless inner ∧ ts = (Text.splitOn ',' inner).map (head ++ · ++ tail)

/-- More text around a group, without a closing brace in front, stays around each alternative. -/
theorem Splices.around {ts : List (List Char)} (h : Splices s ts) (before after : List Char)
    (hbefore : '\x7d' ∉ before) :
    Splices (before ++ s ++ after) (ts.map (before ++ · ++ after)) := by
  obtain ⟨head, inner, tail, rfl, hhead, hinner, rfl⟩ := h
  refine ⟨before ++ head, inner, tail ++ after, by simp, by simp [hbefore, hhead], hinner, ?_⟩
  rw [List.map_map]
  exact List.map_congr_left fun option _ => by simp

theorem Splices.group?_eq {ts : List (List Char)} (h : Splices s ts) : ∃ head inner tail,
    group? s = some (head, inner, tail) ∧ ts = (Text.splitOn ',' inner).map (head ++ · ++ tail) := by
  obtain ⟨head, inner, tail, rfl, hhead, hinner, hts⟩ := h
  exact ⟨head, inner, tail, group?_of_leftmost hhead hinner, hts⟩

theorem Splices.expandFrom {ts : List (List Char)} (h : Splices s ts) (n : Nat) :
    expandFrom (n + 1) s = ts.flatMap (expandFrom n) := by
  obtain ⟨head, inner, tail, hgroup, rfl⟩ := h.group?_eq
  rw [Glob.expandFrom, hgroup, List.flatMap_map]

theorem Splices.count_lt {ts : List (List Char)} (h : Splices s ts) {t : List Char} (ht : t ∈ ts) :
    t.count '\x7b' < s.count '\x7b' := by
  obtain ⟨head, inner, tail, hgroup, rfl⟩ := h.group?_eq
  obtain ⟨option, hoption, rfl⟩ := List.mem_map.1 ht
  exact count_lt_of_group? hgroup hoption

end Glob
end LintMerge
