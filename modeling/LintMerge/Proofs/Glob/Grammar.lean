/-
# What globs with alternatives stand for

A glob with alternatives is a row of characters and groups, and each alternative of a group is such
a row again (`Braced`). It stands for the words that come of choosing an alternative of every group
(`Braced.words`). Its text is expanded by putting alternatives in the place of the leftmost group
without a group inside, which knows nothing of the row. On the row this is a step of its own
(`Braced.step?`): it does to the text what the expansion does (`Braced.splices_of_step?`), and what
comes of it has the same words together (`Braced.mem_words_of_step?`), since no alternative brings a
comma or a brace with it. If no group is nested the words come in the order of the choices
(`Braced.Flat.words_eq`).
-/

import LintMerge.Batch.Options
import LintMerge.Proofs.Glob.Expansion

namespace LintMerge
namespace Glob

/-! ### Rows and alternatives -/

/-- Whether a character stands for itself: a brace never does, and a comma not inside a group. -/
def Plain (inside : Bool) (c : Char) : Prop := isBrace c = false ∧ (inside = true → c ≠ ',')

instance {inside : Bool} {c : Char} : Decidable (Plain inside c) := inferInstanceAs (Decidable (_ ∧ _))

/-- What stands for itself inside a group does so outside. -/
theorem Plain.outside {inside : Bool} {c : Char} (h : Plain true c) : Plain inside c :=
  ⟨h.1, fun _ => h.2 rfl⟩

/-- What a piece of a glob is: a row of characters and groups, inside a group or outside, or the
alternatives of a group. -/
inductive Shape
  | row (inside : Bool)
  | alternatives

/-- A glob with alternatives. -/
inductive Braced : Shape → Type
  | nil {inside : Bool} : Braced (.row inside)
  | char {inside : Bool} (c : Char) (plain : Plain inside c) (rest : Braced (.row inside)) :
      Braced (.row inside)
  | group {inside : Bool} (options : Braced .alternatives) (rest : Braced (.row inside)) :
      Braced (.row inside)
  | one (option : Braced (.row true)) : Braced .alternatives
  | more (option : Braced (.row true)) (options : Braced .alternatives) : Braced .alternatives

namespace Braced

variable {shape : Shape} {inside : Bool}

/-- How a glob is written. -/
def text : {shape : Shape} → Braced shape → List Char
  | _, nil => []
  | _, char c _ rest => c :: rest.text
  | _, group options rest => '\x7b' :: (options.text ++ '\x7d' :: rest.text)
  | _, one option => option.text
  | _, more option options => option.text ++ ',' :: options.text

/-- The words that a glob stands for: in a row the choices are joined, and alternatives stand for
what each of them stands for. -/
def words : {shape : Shape} → Braced shape → List (List Char)
  | _, nil => [[]]
  | _, char c _ rest => rest.words.map (c :: ·)
  | _, group options rest => options.words.flatMap fun w => rest.words.map (w ++ ·)
  | _, one option => option.words
  | _, more option options => option.words ++ options.words

/-- Whether there is no group in a glob. -/
def Groupless : {shape : Shape} → Braced shape → Prop
  | _, nil => True
  | _, char _ _ rest => rest.Groupless
  | _, group _ _ => False
  | _, one option => option.Groupless
  | _, more option options => option.Groupless ∧ options.Groupless

/-- Whether no group is inside another one. -/
def Flat : {shape : Shape} → Braced shape → Prop
  | _, nil => True
  | _, char _ _ rest => rest.Flat
  | _, group options rest => options.Groupless ∧ rest.Flat
  | _, one option => option.Groupless
  | _, more option options => option.Groupless ∧ options.Flat

/-- The alternatives of a group; a row is none. -/
def options : {shape : Shape} → Braced shape → List (Braced (.row true))
  | _, nil => []
  | _, char _ _ _ => []
  | _, group _ _ => []
  | _, one option => [option]
  | _, more option others => option :: others.options

/-- A row after an alternative. -/
def append : Braced (.row true) → Braced (.row inside) → Braced (.row inside)
  | nil, later => later
  | char c plain rest, later => char c plain.outside (rest.append later)
  | group options rest, later => group options (rest.append later)

/-- A glob with each of the alternatives in the place of the leftmost group without a group inside,
if there is one. -/
def step? : {shape : Shape} → Braced shape → Option (List (Braced shape))
  | _, nil => none
  | _, char c plain rest => rest.step?.map (List.map (char c plain))
  | _, group options rest =>
    match options.step? with
    | some steps => some (steps.map (group · rest))
    | none => some (options.options.map (append · rest))
  | _, one option => option.step?.map (List.map one)
  | _, more option options =>
    match option.step? with
    | some steps => some (steps.map (more · options))
    | none => options.step?.map (List.map (more option))

theorem step?_eq_none_iff {p : Braced shape} : p.step? = none ↔ p.Groupless := by
  induction p with
  | nil => simp [step?, Groupless]
  | char c plain rest ih => simp [step?, Groupless, ih]
  | group options rest ihoptions ihrest =>
    rw [step?]
    split <;> simp [Groupless]
  | one option ih => simp [step?, Groupless, ih]
  | more option options ihoption ihoptions =>
    rw [step?, Groupless, ← ihoption, ← ihoptions]
    split <;> simp [*]

theorem Groupless.braceless {p : Braced shape} (h : p.Groupless) : Braceless p.text := by
  induction p with
  | nil => simp [text, Braceless]
  | char c plain rest ih => exact List.forall_mem_cons.2 ⟨plain.1, ih h⟩
  | group options rest => exact h.elim
  | one option ih => exact ih h
  | more option options ihoption ihoptions =>
    exact List.forall_mem_append.2
      ⟨ihoption h.1, List.forall_mem_cons.2 ⟨by decide, ihoptions h.2⟩⟩

theorem Groupless.not_mem_comma : {p : Braced (.row true)} → p.Groupless → ',' ∉ p.text
  | nil, _ => List.not_mem_nil
  | char c plain rest, h => by
    rw [text, List.mem_cons, not_or]
    exact ⟨(plain.2 rfl).symm, Groupless.not_mem_comma (p := rest) h⟩

/-- Without a group a row stands for its text. -/
theorem Groupless.words_eq : {p : Braced (.row inside)} → p.Groupless → p.words = [p.text]
  | nil, _ => rfl
  | char c plain rest, h => by
    rw [words, Groupless.words_eq (p := rest) h]
    rfl

theorem Groupless.splitOn_text : {p : Braced .alternatives} → p.Groupless →
    Text.splitOn ',' p.text = p.options.map text
  | one option, h => Text.splitOn_of_not_mem (Groupless.not_mem_comma h)
  | more option others, h => by
    rw [text, Text.splitOn_append, Text.splitOn_of_not_mem h.1.not_mem_comma, h.2.splitOn_text]
    rfl

theorem Groupless.words_options : {p : Braced .alternatives} → p.Groupless →
    p.words = p.options.map text
  | one option, h => Groupless.words_eq (p := option) h
  | more option others, h => by
    rw [words, h.1.words_eq, h.2.words_options]
    rfl

theorem Groupless.of_mem_options : {p : Braced .alternatives} → p.Groupless →
    ∀ option ∈ p.options, option.Groupless
  | one option, h => List.forall_mem_singleton.2 h
  | more option others, h => List.forall_mem_cons.2 ⟨h.1, h.2.of_mem_options⟩

theorem text_append : (p : Braced (.row true)) → (later : Braced (.row inside)) →
    (p.append later).text = p.text ++ later.text
  | nil, later => by rw [append, text, List.nil_append]
  | char c plain rest, later => by rw [append, text, text_append rest, text, List.cons_append]
  | group options rest, later => by
    rw [append, text, text_append rest, text]
    simp

theorem words_append : (p : Braced (.row true)) → (later : Braced (.row inside)) →
    (p.append later).words = p.words.flatMap fun w => later.words.map (w ++ ·)
  | nil, later => by simp [append, words]
  | char c plain rest, later => by
    rw [append, words, words_append rest, words, List.map_flatMap, List.flatMap_map]
    simp [Function.comp_def]
  | group options rest, later => by
    rw [append, words, words_append rest, words, List.flatMap_assoc]
    simp [List.map_flatMap, List.flatMap_map, Function.comp_def]

/-- **What a step does to the text**: each alternative is put in the place of the leftmost group
without a group inside. -/
theorem splices_of_step? {p : Braced shape} {steps : List (Braced shape)} (h : p.step? = some steps) :
    Splices p.text (steps.map text) := by
  induction p with
  | nil => cases h
  | char c plain rest ih =>
    obtain ⟨steps, hrest, rfl⟩ := Option.map_eq_some_iff.1 h
    have hc : '\x7d' ∉ [c] := by
      rintro hmem
      cases List.mem_singleton.1 hmem
      cases plain.1
    simpa [Function.comp_def, text] using (ih hrest).around [c] [] hc
  | group options rest ihoptions ihrest =>
    rw [step?] at h
    split at h
    · next steps' hsteps =>
      cases h
      simpa [Function.comp_def, text] using
        (ihoptions hsteps).around ['\x7b'] ('\x7d' :: rest.text) (by decide)
    · next hnone =>
      cases h
      have hfree := step?_eq_none_iff.1 hnone
      refine ⟨[], options.text, rest.text, rfl, List.not_mem_nil, hfree.braceless, ?_⟩
      rw [hfree.splitOn_text, List.map_map, List.map_map]
      exact List.map_congr_left fun option _ => by simp [text_append]
  | one option ih =>
    obtain ⟨steps, hoption, rfl⟩ := Option.map_eq_some_iff.1 h
    simpa [Function.comp_def, text] using ih hoption
  | more option options ihoption ihoptions =>
    rw [step?] at h
    split at h
    · next steps' hsteps =>
      cases h
      simpa [Function.comp_def, text] using
        (ihoption hsteps).around [] (',' :: options.text) List.not_mem_nil
    · next hnone =>
      obtain ⟨steps, hoptions, rfl⟩ := Option.map_eq_some_iff.1 h
      have hbefore : '\x7d' ∉ option.text ++ [','] := by
        simp [(step?_eq_none_iff.1 hnone).braceless.not_mem_close]
      simpa [Function.comp_def, text] using (ihoptions hoptions).around (option.text ++ [',']) [] hbefore

theorem step_ne_nil {p : Braced shape} {steps : List (Braced shape)} (h : p.step? = some steps) :
    steps ≠ [] := by
  rintro rfl
  obtain ⟨head, inner, tail, -, -, -, hnil⟩ := splices_of_step? h
  exact Text.splitOn_ne_nil _ _ (List.map_eq_nil_iff.1 hnil.symm)

/-- **What a step does to the words**: what comes of it has the same words together. -/
theorem mem_words_of_step? {p : Braced shape} {steps : List (Braced shape)} (h : p.step? = some steps)
    {w : List Char} : w ∈ p.words ↔ ∃ q ∈ steps, w ∈ q.words := by
  induction p generalizing w with
  | nil => cases h
  | char c plain rest ih =>
    obtain ⟨steps, hrest, rfl⟩ := Option.map_eq_some_iff.1 h
    simp only [words, List.mem_map, ih hrest, exists_exists_and_eq_and]
    grind
  | group options rest ihoptions ihrest =>
    rw [step?] at h
    split at h
    · next steps' hsteps =>
      cases h
      simp only [words, List.mem_flatMap, ihoptions hsteps, List.mem_map, exists_exists_and_eq_and]
      grind
    · next hnone =>
      cases h
      have hfree := step?_eq_none_iff.1 hnone
      rw [words, hfree.words_options]
      simp only [List.mem_flatMap, List.mem_map, exists_exists_and_eq_and, words_append]
      refine exists_congr fun option => and_congr_right fun hoption => ?_
      rw [(hfree.of_mem_options option hoption).words_eq]
      simp
  | one option ih =>
    obtain ⟨steps, hoption, rfl⟩ := Option.map_eq_some_iff.1 h
    simp only [words, ih hoption, List.mem_map, exists_exists_and_eq_and]
  | more option options ihoption ihoptions =>
    -- the alternatives that are left as they are need a step to stand in
    rw [step?] at h
    split at h
    · next steps' hsteps =>
      cases h
      obtain ⟨q, hq⟩ := List.exists_mem_of_ne_nil _ (step_ne_nil hsteps)
      simp only [words, List.mem_append, ihoption hsteps, List.mem_map, exists_exists_and_eq_and]
      grind
    · next hnone =>
      obtain ⟨steps, hoptions, rfl⟩ := Option.map_eq_some_iff.1 h
      obtain ⟨q, hq⟩ := List.exists_mem_of_ne_nil _ (step_ne_nil hoptions)
      simp only [words, List.mem_append, ihoptions hoptions, List.mem_map, exists_exists_and_eq_and]
      grind

/-- Without a group nothing is expanded. -/
theorem Groupless.expandFrom {p : Braced shape} (h : p.Groupless) (n : Nat) :
    expandFrom n p.text = [p.text] :=
  expandFrom_of_none (group?_eq_none_iff.2 fun hsub =>
    h.braceless.not_mem_open (hsub.subset List.mem_cons_self)) n

/-- With a group, what comes of a step is expanded. -/
theorem expandFrom_of_step? {p : Braced shape} {steps : List (Braced shape)} {n : Nat}
    (h : p.step? = some steps) (hn : p.text.count '\x7b' ≤ n) :
    ∃ m, n = m + 1 ∧ (∀ q ∈ steps, q.text.count '\x7b' ≤ m) ∧
      expandFrom n p.text = steps.flatMap fun q => expandFrom m q.text := by
  have hsplices := splices_of_step? h
  have hlt (q : Braced shape) (hq : q ∈ steps) : q.text.count '\x7b' < n :=
    Nat.lt_of_lt_of_le (hsplices.count_lt (List.mem_map_of_mem hq)) hn
  obtain ⟨q, hq⟩ := List.exists_mem_of_ne_nil _ (step_ne_nil h)
  obtain ⟨m, rfl⟩ := Nat.exists_eq_add_of_lt (Nat.lt_of_le_of_lt (Nat.zero_le _) (hlt q hq))
  refine ⟨m, by omega, fun q hq => Nat.le_of_lt_succ (by have := hlt q hq; omega), ?_⟩
  rw [Nat.zero_add, hsplices.expandFrom, List.flatMap_map]

/-- **The words of a row are what its text is expanded to.** -/
theorem mem_expandFrom_text {n : Nat} (p : Braced (.row inside)) (hn : p.text.count '\x7b' ≤ n)
    {w : List Char} : w ∈ expandFrom n p.text ↔ w ∈ p.words := by
  induction n using Nat.strongRecOn generalizing p w with
  | ind n ih =>
    cases hstep : p.step? with
    | none =>
      have hfree := step?_eq_none_iff.1 hstep
      rw [hfree.expandFrom, hfree.words_eq]
    | some steps =>
      obtain ⟨m, rfl, hm, hexpand⟩ := expandFrom_of_step? hstep hn
      rw [hexpand, mem_words_of_step? hstep, List.mem_flatMap]
      exact exists_congr fun q => and_congr_right fun hq => ih m (Nat.lt_succ_self m) q (hm q hq)

/-! ### Choices -/

theorem Groupless.flat_append : {p : Braced (.row true)} → p.Groupless →
    {later : Braced (.row inside)} → later.Flat → (p.append later).Flat
  | nil, _, _, hlater => by rwa [append]
  | char c plain rest, h, _, hlater => by
    rw [append, Flat]
    exact Groupless.flat_append (p := rest) h hlater

/-- **If no group is nested**, what comes of a step has the same words in the same order. -/
theorem Flat.of_step? : {p : Braced (.row inside)} → p.Flat → {steps : List (Braced (.row inside))} →
    p.step? = some steps → (∀ q ∈ steps, q.Flat) ∧ p.words = steps.flatMap words
  | char c plain rest, hflat, steps, h => by
    obtain ⟨steps, hrest, rfl⟩ := Option.map_eq_some_iff.1 h
    obtain ⟨hsteps, hwords⟩ := Flat.of_step? (p := rest) hflat hrest
    refine ⟨List.forall_mem_map.2 hsteps, ?_⟩
    rw [words, hwords, List.map_flatMap, List.flatMap_map]
    rfl
  | group options rest, hflat, steps, h => by
    rw [step?, step?_eq_none_iff.2 hflat.1] at h
    cases h
    refine ⟨List.forall_mem_map.2 fun option hoption =>
      (hflat.1.of_mem_options option hoption).flat_append hflat.2, ?_⟩
    rw [words, hflat.1.words_options, List.flatMap_map, List.flatMap_map]
    refine List.flatMap_congr fun option hoption => ?_
    rw [words_append, (hflat.1.of_mem_options option hoption).words_eq, List.flatMap_singleton]

/-- If no group is nested, a text is expanded to the words of its row, in their order. -/
theorem Flat.expandFrom {n : Nat} {p : Braced (.row inside)} (h : p.Flat)
    (hn : p.text.count '\x7b' ≤ n) : expandFrom n p.text = p.words := by
  induction n using Nat.strongRecOn generalizing p with
  | ind n ih =>
    cases hstep : p.step? with
    | none =>
      have hfree := step?_eq_none_iff.1 hstep
      rw [hfree.expandFrom, hfree.words_eq]
    | some steps =>
      obtain ⟨m, rfl, hm, hexpand⟩ := expandFrom_of_step? hstep hn
      obtain ⟨hsteps, hwords⟩ := h.of_step? hstep
      rw [hexpand, hwords]
      exact List.flatMap_congr fun q hq => ih m (Nat.lt_succ_self m) (hsteps q hq) (hm q hq)

/-- The word that comes of choosing, for each group from left to right, the alternative with the
given number, if there are these alternatives. -/
def pick : {shape : Shape} → Braced shape → List Nat → Option (List Char)
  | _, nil, [] => some []
  | _, char c _ rest, choice => (rest.pick choice).map (c :: ·)
  | _, group options rest, i :: choice =>
    options.options[i]?.bind fun option => (rest.pick choice).map (option.text ++ ·)
  | _, _, _ => none

/-- All choices of alternatives, the leftmost first. -/
def choices : {shape : Shape} → Braced shape → List (List Nat)
  | _, nil => [[]]
  | _, char _ _ rest => rest.choices
  | _, group options rest =>
    options.options.zipIdx.flatMap fun option => rest.choices.map (option.2 :: ·)
  | _, one _ => []
  | _, more _ _ => []

theorem mem_choices_iff {p : Braced shape} {choice : List Nat} :
    choice ∈ p.choices ↔ (p.pick choice).isSome = true := by
  induction p generalizing choice with
  | nil => cases choice <;> simp [choices, pick]
  | char c plain rest ih => simp [choices, pick, ih]
  | group options rest ihoptions ihrest =>
    cases choice with
    | nil => simp [choices, pick]
    | cons i choice =>
      simp only [choices, pick, List.mem_flatMap, Prod.exists, List.mem_zipIdx_iff_getElem?, List.mem_map,
        List.cons.injEq, ihrest, Option.isSome_iff_exists, Option.bind_eq_some_iff, Option.map_eq_some_iff]
      constructor
      · rintro ⟨option, _, hoption, _, ⟨w, hw⟩, rfl, rfl⟩
        exact ⟨option.text ++ w, option, hoption, w, hw, rfl⟩
      · rintro ⟨_, option, hoption, w, hw, rfl⟩
        exact ⟨option, i, hoption, choice, ⟨w, hw⟩, rfl, rfl⟩
  | one option ih => simp [choices, pick]
  | more option options ihoption ihoptions => simp [choices, pick]

/-- The choices are in lexicographic order. -/
theorem pairwise_choices (p : Braced shape) : p.choices.Pairwise (List.Lex (· < ·)) := by
  induction p with
  | nil => simp [choices]
  | char c plain rest ih => exact ih
  | group options rest ihoptions ihrest =>
    rw [choices, List.pairwise_flatMap]
    constructor
    · intro option _
      rw [List.pairwise_map]
      exact ihrest.imp .cons
    · have hnumbers : (options.options.zipIdx.map Prod.snd).Pairwise (· < ·) := by
        rw [List.zipIdx_map_snd]
        exact List.pairwise_lt_range'
      refine (List.pairwise_map.1 hnumbers).imp fun hlt => ?_
      simp only [List.mem_map]
      rintro _ ⟨choice, -, rfl⟩ _ ⟨choice', -, rfl⟩
      exact .rel hlt
  | one option ih => exact .nil
  | more option options ihoption ihoptions => exact .nil

/-- **If no group is nested**, the words of a row are those of its choices, in their order. -/
theorem Flat.words_eq : {p : Braced (.row inside)} → p.Flat → p.words = p.choices.filterMap p.pick
  | nil, _ => rfl
  | char c plain rest, h => by
    rw [words, Flat.words_eq (p := rest) h, List.map_filterMap]
    rfl
  | group options rest, h => by
    have hfst : options.options = options.options.zipIdx.map Prod.fst := (List.zipIdx_map_fst 0 _).symm
    rw [words, h.1.words_options, List.flatMap_map, hfst, List.flatMap_map, choices,
      List.filterMap_flatMap, Flat.words_eq (p := rest) h.2]
    refine List.flatMap_congr fun option hoption => ?_
    rw [List.filterMap_map, List.map_filterMap]
    refine List.filterMap_congr fun choice _ => ?_
    rw [Function.comp_apply, pick, List.mem_zipIdx_iff_getElem?.1 hoption]
    rfl

end Braced

/-- **Alternatives are expanded to the words that they stand for.** The work on every pattern comes
to an end, with what the pattern is expanded to but for repetitions. No result comes twice and in
none an opening brace stands before a closing one. What the text of a row is expanded to are the
words of the row, and if no group is nested these come in the lexicographic order of the choices,
each where it comes first. -/
theorem expandBraces_correct (pattern : String) :
    (∃ found, Work.Ends ⟨[pattern.toList], []⟩ found ∧
        expandBraces pattern = (found.map String.ofList).eraseDups) ∧
      (expandBraces pattern).Nodup ∧
      (∀ x ∈ expandBraces pattern, ¬ ['\x7b', '\x7d'].Sublist x.toList) ∧
      ∀ p : Braced (.row false), p.text = pattern.toList →
        (∀ x, x ∈ expandBraces pattern ↔ x.toList ∈ p.words) ∧
        (p.Flat → ∃ choices : List (List Nat), choices.Pairwise (List.Lex (· < ·)) ∧
          (∀ choice, choice ∈ choices ↔ (p.pick choice).isSome = true) ∧
          expandBraces pattern = ((choices.filterMap p.pick).map String.ofList).eraseDups) := by
  have hmem (x : String) : x ∈ expandBraces pattern ↔
      x.toList ∈ expandFrom (pattern.toList.count '\x7b') pattern.toList := by
    rw [expandBraces, List.mem_eraseDups, List.mem_map]
    exact ⟨fun ⟨w, hw, hx⟩ => hx ▸ by rwa [String.toList_ofList],
      fun hx => ⟨x.toList, hx, String.ofList_toList⟩⟩
  refine ⟨⟨_, Work.ends pattern.toList, rfl⟩, Batch.nodup_eraseDups _, fun x hx => ?_,
    fun p hp => ⟨fun x => ?_, fun hflat => ?_⟩⟩
  · exact group?_eq_none_iff.1 (group?_of_mem_expandFrom (Nat.le_refl _) ((hmem x).1 hx))
  · rw [hmem, ← hp, p.mem_expandFrom_text (Nat.le_refl _)]
  · refine ⟨p.choices, p.pairwise_choices, fun choice => p.mem_choices_iff, ?_⟩
    rw [expandBraces, ← hp, hflat.expandFrom (Nat.le_refl _), hflat.words_eq]

/-- The conditions in `expandBraces_correct` are met by a glob with a group of two alternatives, the
first of which is empty, and a group of one: it stands for two words. -/
theorem expandBraces_correct_sample :
    ∃ p : Braced (.row false), p.text = "\x7b,a\x7d,\x7bb\x7d".toList ∧ p.Flat ∧
      ",b" ∈ expandBraces "\x7b,a\x7d,\x7bb\x7d" ∧ "a,b" ∈ expandBraces "\x7b,a\x7d,\x7bb\x7d" ∧
      ∃ choices : List (List Nat), choices.Pairwise (List.Lex (· < ·)) ∧
        [1, 0] ∈ choices ∧ [2, 0] ∉ choices ∧
        expandBraces "\x7b,a\x7d,\x7bb\x7d" =
          ((choices.filterMap p.pick).map String.ofList).eraseDups := by
  let a : Braced (.row true) := .char 'a' (by decide) .nil
  let b : Braced (.row true) := .char 'b' (by decide) .nil
  let p : Braced (.row false) :=
    .group (.more .nil (.one a)) (.char ',' (by decide) (.group (.one b) .nil))
  obtain ⟨-, -, -, hwords⟩ := expandBraces_correct "\x7b,a\x7d,\x7bb\x7d"
  obtain ⟨hmem, hflat⟩ := hwords p rfl
  obtain ⟨choices, hordered, hchoices, heq⟩ := hflat ⟨⟨trivial, trivial⟩, trivial, trivial⟩
  refine ⟨p, rfl, ⟨⟨trivial, trivial⟩, trivial, trivial⟩, (hmem _).2 (by decide), (hmem _).2 (by decide),
    choices, hordered, (hchoices _).2 rfl, ?_, heq⟩
  exact fun h => by cases (hchoices _).1 h

end Glob
end LintMerge
