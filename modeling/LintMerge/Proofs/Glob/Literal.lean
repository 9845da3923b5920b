/-
# Globs that start with a path

A text without wildcards and backslashes stands for itself in a glob, part by part. So what a
line that starts with such a text matches starts with the text, and goes on after it with a
slash, or ends there, but for a line feed (`Pattern.start_of_weight?`). Braces in the rest of
a glob leave its start alone (`mem_expandBraces_append`).
-/

import LintMerge.Proofs.Glob.Exclusion

namespace LintMerge
namespace Glob

/-- Characters that stand for themselves in a glob. -/
def Literal (s : List Char) : Prop := ∀ c ∈ s, c ≠ '*' ∧ c ≠ '?' ∧ c ≠ '[' ∧ c ≠ '\\'

theorem Literal.piecesFrom {s : List Char} (hs : Literal s) {fuel : Nat} (hfuel : s.length ≤ fuel) :
    piecesFrom fuel s = some (s.map .char) := by
  induction s generalizing fuel with
  | nil => cases fuel <;> rfl
  | cons c s ih =>
    obtain ⟨hstar, hone, hclass, hback⟩ := hs c List.mem_cons_self
    cases fuel with
    | zero => exact absurd hfuel (Nat.not_succ_le_zero _)
    | succ fuel =>
      have hrest := ih (fun d hd => hs d (List.mem_cons_of_mem _ hd)) (Nat.le_of_succ_le_succ hfuel)
      unfold Glob.piecesFrom
      split
      · next heq => cases heq
      · next heq => exact absurd (List.cons.inj heq).1 hback
      · next heq => exact absurd (List.cons.inj heq).1 hback
      · next heq => exact absurd (List.cons.inj heq).1 hstar
      · next heq => exact absurd (List.cons.inj heq).1 hone
      · next heq => exact absurd (List.cons.inj heq).1 hclass
      · next heq =>
        cases heq
        rw [hrest]
        rfl

theorem Literal.ne_deep {s : List Char} (hs : Literal s) : s ≠ ['*', '*'] := by
  rintro rfl
  exact (hs '*' List.mem_cons_self).1 rfl

theorem Literal.segment? {s : List Char} (hs : Literal s) : segment? s = some (.name (s.map .char)) := by
  have hany : s ≠ ['*'] := by
    rintro rfl
    exact (hs '*' List.mem_cons_self).1 rfl
  rw [Glob.segment?, if_neg hs.ne_deep, if_neg hany, hs.piecesFrom (Nat.le_refl _), Option.map_some]

/-- The parts of a text consist of its characters. -/
theorem Literal.parts {s : List Char} (hs : Literal s) {part : List Char}
    (hpart : part ∈ Text.splitOn '/' s) : Literal part :=
  fun c hc => hs c (Text.subset_of_mem_splitOn hpart hc)

/-- The segments of names. -/
def names (parts : List (List Char)) : List Segment := parts.map fun s => .name (s.map .char)

/-- Segments are read one by one. -/
theorem mapM_segment?_append {parts more : List (List Char)} {segments : List Segment} :
    (parts ++ more).mapM segment? = some segments ↔ ∃ first rest, parts.mapM segment? = some first ∧
      more.mapM segment? = some rest ∧ segments = first ++ rest := by
  simp only [List.mapM_append, Option.bind_eq_bind, Option.bind_eq_some_iff, Option.pure_def,
    Option.some.injEq]
  constructor
  · rintro ⟨first, hfirst, rest, hrest, rfl⟩
    exact ⟨first, rest, hfirst, hrest, rfl⟩
  · rintro ⟨first, rest, hfirst, hrest, rfl⟩
    exact ⟨first, hfirst, rest, hrest, rfl⟩

/-- Parts that stand for themselves are names. -/
theorem mapM_segment?_names {parts : List (List Char)} (hparts : ∀ s ∈ parts, Literal s) :
    parts.mapM segment? = some (names parts) := by
  induction parts with
  | nil => rfl
  | cons s parts ih =>
    rw [List.mapM_cons, (hparts s List.mem_cons_self).segment?,
      ih fun t ht => hparts t (List.mem_cons_of_mem _ ht)]
    rfl

/-- A text without `*` is not read as `**`. -/
theorem deep_not_mem {ss : List (List Char)} {first : List Segment} (hstar : ∀ s ∈ ss, '*' ∉ s)
    (h : ss.mapM segment? = some first) : .deep ∉ first := by
  induction ss generalizing first with
  | nil =>
    cases h
    exact List.not_mem_nil
  | cons s ss ih =>
    rw [List.mapM_cons] at h
    simp only [Option.bind_eq_bind, Option.bind_eq_some_iff, Option.pure_def, Option.some.injEq] at h
    obtain ⟨segment, hsegment, rest, hrest, rfl⟩ := h
    rw [List.mem_cons, not_or]
    refine ⟨?_, ih (fun t ht => hstar t (List.mem_cons_of_mem _ ht)) hrest⟩
    rintro rfl
    rw [segment?] at hsegment
    split at hsegment
    · next hs => exact hstar s List.mem_cons_self (hs ▸ List.mem_cons_self)
    · split at hsegment
      · cases hsegment
      · obtain ⟨_, -, hname⟩ := Option.map_eq_some_iff.1 hsegment
        cases hname

theorem mapM_segment? {parts more : List (List Char)} {segments : List Segment}
    (hparts : ∀ s ∈ parts, Literal s) (h : (parts ++ more).mapM segment? = some segments) :
    ∃ rest, more.mapM segment? = some rest ∧ segments = names parts ++ rest := by
  obtain ⟨first, rest, hfirst, hrest, rfl⟩ := mapM_segment?_append.1 h
  rw [mapM_segment?_names hparts] at hfirst
  cases hfirst
  exact ⟨rest, hrest, rfl⟩

/-- The steps for characters that stand for themselves. -/
def literally (s : List Char) : List Step := s.map fun c => .piece (.char c)

theorem literally_append (s t : List Char) : literally (s ++ t) = literally s ++ literally t :=
  List.map_append

theorem eats_literally {s c : List Char} {more : List Step} :
    Eats (literally s ++ more) c ↔ ∃ b, Eats more b ∧ c = s ++ b := by
  induction s generalizing c with
  | nil => exact ⟨fun h => ⟨c, h, rfl⟩, fun ⟨b, hb, hc⟩ => hc ▸ hb⟩
  | cons a s ih =>
    show (∃ x y, x = [a] ∧ Eats (literally s ++ more) y ∧ c = x ++ y) ↔ _
    constructor
    · rintro ⟨_, y, rfl, hy, rfl⟩
      obtain ⟨b, hb, rfl⟩ := ih.1 hy
      exact ⟨b, hb, rfl⟩
    · rintro ⟨b, hb, rfl⟩
      exact ⟨[a], s ++ b, rfl, ih.2 ⟨b, hb, rfl⟩, rfl⟩

theorem map_piece_char (s : List Char) : (s.map Piece.char).map Step.piece = literally s := by
  rw [List.map_map]
  rfl

/-- Names after the first are eaten with a slash before each. -/
theorem stepsAfter_names (parts : List (List Char)) (more : List Segment) :
    stepsAfter (names parts ++ more) = literally (parts.flatMap ('/' :: ·)) ++ stepsAfter more := by
  induction parts with
  | nil => rfl
  | cons s parts ih =>
    show stepsAfter (.name (s.map .char) :: (names parts ++ more)) = _
    rw [stepsAfter, ih, map_piece_char, List.flatMap_cons, literally_append]
    simp [literally]

/-- A text and what comes with a slash before it are the joined parts. -/
theorem joinWith_cons (s : List Char) (parts : List (List Char)) :
    Text.joinWith ['/'] (s :: parts) = s ++ parts.flatMap ('/' :: ·) := by
  induction parts generalizing s with
  | nil => simp [Text.joinWith]
  | cons t parts ih =>
    rw [Text.joinWith_cons_cons, ih, List.flatMap_cons]
    simp

/-- The steps of a pattern that starts with a text eat the text first. -/
theorem steps_names (s : List Char) (more : List Segment) :
    steps (names (Text.splitOn '/' s) ++ more) = literally s ++ stepsAfter more := by
  have hjoin := Text.joinWith_splitOn '/' s
  cases hsplit : Text.splitOn '/' s with
  | nil => exact absurd hsplit (Text.splitOn_ne_nil _ _)
  | cons part parts =>
    rw [hsplit, joinWith_cons] at hjoin
    show steps (.name (part.map .char) :: (names parts ++ more)) = _
    rw [steps, stepsAfter_names, map_piece_char, ← List.append_assoc, ← literally_append, hjoin]

/-- What is eaten after the first segment starts with a slash. -/
theorem head?_of_eats_stepsAfter {more : List Segment} {c : List Char} (h : Eats (stepsAfter more) c) :
    c = [] ∨ c.head? = some '/' := by
  induction more generalizing c with
  | nil => exact .inl h
  | cons segment more ih =>
    cases segment with
    | deep =>
      rw [stepsAfter] at h
      split at h
      · exact .inl h
      · obtain ⟨a, b, ha, hb, rfl⟩ := h
        rcases ha with rfl | ⟨u, -, -, rfl⟩
        · exact ih hb
        · exact .inr rfl
    | any =>
      obtain ⟨a, b, rfl, -, rfl⟩ := h
      exact .inr rfl
    | name ps =>
      obtain ⟨a, b, rfl, -, rfl⟩ := h
      exact .inr rfl

/-- Something is eaten by what does not end with `**`. -/
theorem ne_nil_of_eats_stepsAfter {more : List Segment} {c : List Char} (hne : more ≠ [])
    (hlast : more.getLast? ≠ some .deep) (h : Eats (stepsAfter more) c) : c ≠ [] := by
  induction more generalizing c with
  | nil => exact absurd rfl hne
  | cons segment more ih =>
    cases segment with
    | deep =>
      cases more with
      | nil => exact absurd rfl hlast
      | cons segment' more =>
        obtain ⟨a, b, -, hb, rfl⟩ := h
        exact List.append_ne_nil_of_right_ne_nil _ (ih (List.cons_ne_nil _ _) hlast hb)
    | any =>
      obtain ⟨a, b, rfl, -, rfl⟩ := h
      exact List.cons_ne_nil _ _
    | name ps =>
      obtain ⟨a, b, rfl, -, rfl⟩ := h
      exact List.cons_ne_nil _ _

namespace Pattern

/-- **What a pattern matches that starts with a text** starts with the text. -/
theorem start_of_weight? {p : Pattern} {s path : List Char} {more : List Segment}
    (hp : p.segments = names (Text.splitOn '/' s) ++ more) (h : (p.weight? path).isSome = true) :
    ∃ c r, path = s ++ c ++ r ∧ Eats (stepsAfter more) c ∧ (p.ending.weight? r).isSome = true := by
  have hweigh : p.weight? path = weigh? p.ending (steps p.segments) path := by
    cases hsplit : Text.splitOn '/' s with
    | nil => exact absurd hsplit (Text.splitOn_ne_nil _ _)
    | cons part parts =>
      rw [hsplit] at hp
      rw [weight?, hp]
      rfl
  rw [hweigh, hp, steps_names, weigh?_isSome] at h
  obtain ⟨c, r, hc, rfl, hr⟩ := h
  obtain ⟨b, hb, rfl⟩ := eats_literally.1 hc
  exact ⟨b, r, rfl, hb, hr⟩

/-- A text of which the last character is not white space is not trimmed. -/
theorem trimLine_of_getLast? {s : List Char} (h : ∀ c ∈ s.getLast?, Text.isBlank c = false) :
    trimLine s = s := by
  unfold trimLine
  split
  · rfl
  · exact Text.trimEnd_of_getLast? h

theorem collapseDeep_ne_nil {parts : List (List Char)} (h : parts ≠ []) : collapseDeep parts ≠ [] := by
  induction parts using collapseDeep.induct with
  | case1 rest ih =>
    rw [collapseDeep]
    exact ih (List.cons_ne_nil _ _)
  | case2 s rest hs _ =>
    rw [collapseDeep]
    · exact List.cons_ne_nil _ _
    · exact hs
  | case3 => exact absurd rfl h

theorem closeDeep_ne_nil {parts : List (List Char)} (h : parts ≠ []) : closeDeep parts ≠ [] := by
  match parts with
  | [] => exact absurd rfl h
  | [_] => exact List.cons_ne_nil _ _
  | _ :: _ :: _ => exact List.cons_ne_nil _ _

/-- **How an anchored line is read** that does not end with white space. -/
theorem ofLine_anchored_iff {s : List Char} {p : Pattern} (hne : s ≠ [])
    (hlast : ∀ c ∈ s.getLast?, Text.isBlank c = false) :
    ofLine (String.ofList ('/' :: s)) = .ok (some p) ↔ ∃ segments,
      (collapseDeep (closeDeep (Text.splitOn '/' s))).mapM segment? = some segments ∧
        p = ⟨false, decide ((Text.splitOn '/' ('/' :: s)).getLast? = some []), segments⟩ := by
  have htrim : trimLine ('/' :: s) = '/' :: s := by
    refine trimLine_of_getLast? ?_
    rwa [List.getLast?_cons_of_ne_nil hne]
  have hanchored : anchored (Text.splitOn '/' ('/' :: s)) = Text.splitOn '/' s := by
    rw [Text.splitOn, if_pos rfl, anchored]
  have hmark : unmarked ('/' :: s) = (false, '/' :: s) := rfl
  have hsome : collapseDeep (closeDeep (Text.splitOn '/' s)) ≠ [] :=
    collapseDeep_ne_nil (closeDeep_ne_nil (Text.splitOn_ne_nil _ _))
  unfold ofLine
  rw [String.toList_ofList, htrim]
  dsimp only
  split
  · next heq => cases heq
  · next heq => cases heq
  · next heq => exact absurd (List.cons.inj heq).2 hne
  · rw [hmark]
    dsimp only
    rw [hanchored]
    split
    · next heq => exact absurd heq hsome
    · cases (collapseDeep (closeDeep (Text.splitOn '/' s))).mapM segment? with
      | none => simp
      | some segments => simp [eq_comm]

/-- **The segments of an anchored line** that does not end with white space. -/
theorem segments_of_ofLine {s : List Char} {p : Pattern}
    (hlast : ∀ c ∈ s.getLast?, Text.isBlank c = false)
    (h : ofLine (String.ofList ('/' :: s)) = .ok (some p)) :
    (collapseDeep (closeDeep (Text.splitOn '/' s))).mapM segment? = some p.segments := by
  have hne : s ≠ [] := by
    rintro rfl
    cases h
  obtain ⟨segments, hsegments, rfl⟩ := (ofLine_anchored_iff hne hlast).1 h
  exact hsegments

/-- A `!` at the start of a line makes a pattern that includes again. -/
theorem negated_of_ofLine_mark {s : List Char} {p : Pattern}
    (h : ofLine (String.ofList ('!' :: s)) = .ok (some p)) : p.negated = true := by
  have hhead {c : Char} {r : List Char} (hc : trimLine ('!' :: s) = c :: r) : c = '!' :=
    (Option.some.inj (head?_trimLine (s := '!' :: s) (by rw [hc]; rfl))).symm
  unfold ofLine at h
  rw [String.toList_ofList] at h
  dsimp only at h
  cases htrim : trimLine ('!' :: s) with
  | nil =>
    rw [htrim] at h
    cases h
  | cons c r =>
    obtain rfl := hhead htrim
    rw [htrim] at h
    split at h
    · cases h
    · cases h
    · cases h
    · split at h
      · cases h
      · split at h
        · cases h
        · cases h
          rfl

theorem closeDeep_of_getLast? {parts : List (List Char)} (h : parts.getLast? ≠ some []) :
    closeDeep parts = parts := by
  cases parts with
  | nil => rfl
  | cons s parts =>
    cases parts with
    | nil => rfl
    | cons t parts =>
      rw [List.getLast?_cons_cons] at h
      have hlast : (t :: parts).getLast? = some ((t :: parts).getLast (List.cons_ne_nil _ _)) :=
        List.getLast?_eq_some_getLast _
      have hsome : (t :: parts).getLast (List.cons_ne_nil _ _) ≠ [] := fun hnil => h (hlast.trans (hnil ▸ rfl))
      rw [closeDeep, hlast, Option.toList_some, List.map_singleton, if_neg (by simpa using hsome),
        List.dropLast_append_getLast]
      exact List.cons_ne_nil _ _

theorem closeDeep_append {parts more : List (List Char)} (hparts : parts ≠ []) (hmore : more ≠ []) :
    ∃ more', more' ≠ [] ∧ closeDeep (parts ++ more) = parts ++ more' := by
  refine ⟨more.dropLast ++ more.getLast?.toList.map fun t => if t.isEmpty then ['*', '*'] else t, ?_, ?_⟩
  · rw [List.getLast?_eq_some_getLast hmore]
    exact List.append_ne_nil_of_right_ne_nil _ (List.cons_ne_nil _ _)
  · cases parts with
    | nil => exact absurd rfl hparts
    | cons s parts =>
      rw [List.cons_append, closeDeep, List.dropLast_append_of_ne_nil hmore,
        List.getLast?_append_of_ne_nil _ hmore, List.append_assoc, List.cons_append]
      exact fun h => hmore (List.append_eq_nil_iff.1 h).2

theorem collapseDeep_append {parts more : List (List Char)} (h : ∀ s ∈ parts, s ≠ ['*', '*']) :
    collapseDeep (parts ++ more) = parts ++ collapseDeep more := by
  induction parts with
  | nil => rfl
  | cons s parts ih =>
    rw [List.cons_append, collapseDeep, ih fun t ht => h t (List.mem_cons_of_mem _ ht)]
    · rfl
    · exact fun _ hs _ => h s List.mem_cons_self hs

/-- A line that starts with neither a slash nor a mark is anchored by a slash. -/
theorem anchor_eq {x : String} (hslash : x.toList.head? ≠ some '/') (hmark : x.toList.head? ≠ some '!') :
    Spec.anchor x = String.ofList ('/' :: x.toList) := by
  unfold Spec.anchor
  split
  · next heq => exact absurd (heq ▸ rfl) hslash
  · next heq => exact absurd (heq ▸ rfl) hmark
  · rw [← String.toList_inj]
    simp

/-- The segments of a line that is anchored if it includes, and does not end with white space. -/
theorem segments_of_anchor {x : String} {p : Pattern} (hhead : x.toList.head? ≠ some '/')
    (hlast : ∀ c ∈ x.toList.getLast?, Text.isBlank c = false)
    (h : ofLine (Spec.anchor x) = .ok (some p)) (hp : p.negated = false) :
    (collapseDeep (closeDeep (Text.splitOn '/' x.toList))).mapM segment? = some p.segments := by
  by_cases hmark : x.toList.head? = some '!'
  · obtain ⟨rest, hrest⟩ := List.head?_eq_some_iff.1 hmark
    have hanchor : Spec.anchor x = String.ofList ('!' :: rest) := by
      rw [← hrest, String.ofList_toList, Spec.anchor, hrest]
      rfl
    rw [negated_of_ofLine_mark (hanchor ▸ h)] at hp
    cases hp
  · exact segments_of_ofLine hlast (anchor_eq hhead hmark ▸ h)

variable {p : Pattern} {path : List Char}

/-- A line that goes on after a text and a slash has the names of the text and more as segments. -/
theorem segments_start {s y : String} (hs : Literal s.toList) (hhead : s.toList.head? ≠ some '/')
    (hne : s ≠ "") (hlast : ∀ c ∈ y.toList.getLast?, Text.isBlank c = false)
    (h : ofLine (Spec.anchor (s ++ "/" ++ y)) = .ok (some p)) (hp : p.negated = false) :
    ∃ more, more ≠ [] ∧ p.segments = names (Text.splitOn '/' s.toList) ++ more := by
  have hx : (s ++ "/" ++ y).toList = s.toList ++ '/' :: y.toList := by simp
  have hxhead : (s ++ "/" ++ y).toList.head? ≠ some '/' := by
    rw [hx, List.head?_append_of_ne_nil _ (mt String.toList_eq_nil_iff.1 hne)]
    exact hhead
  have hxlast : ∀ c ∈ (s ++ "/" ++ y).toList.getLast?, Text.isBlank c = false := by
    intro c hc
    rw [hx, List.getLast?_append_of_ne_nil _ (List.cons_ne_nil _ _), List.getLast?_cons] at hc
    cases hy : y.toList.getLast? with
    | none =>
      rw [hy] at hc
      cases hc
      decide
    | some d =>
      rw [hy] at hc
      exact hlast c (hy ▸ hc)
  have hsegments := segments_of_anchor hxhead hxlast h hp
  obtain ⟨parts, hparts, hclose⟩ := closeDeep_append (Text.splitOn_ne_nil '/' s.toList)
    (Text.splitOn_ne_nil '/' y.toList)
  rw [hx, Text.splitOn_append, hclose, collapseDeep_append fun part hpart => (hs.parts hpart).ne_deep]
    at hsegments
  obtain ⟨more, hmore, hsegments⟩ := mapM_segment? (fun part hpart => hs.parts hpart) hsegments
  refine ⟨more, ?_, hsegments⟩
  rintro rfl
  cases hcollapse : collapseDeep parts with
  | nil => exact collapseDeep_ne_nil hparts hcollapse
  | cons part parts =>
    rw [hcollapse, List.mapM_cons] at hmore
    obtain ⟨_, -, hmore⟩ := Option.bind_eq_some_iff.1 hmore
    obtain ⟨_, -, hmore⟩ := Option.bind_eq_some_iff.1 hmore
    cases hmore

/-- **What a line matches that goes on after a text and a slash** lies below the text. -/
theorem below_of_weight? {s y : String} (hs : Literal s.toList) (hhead : s.toList.head? ≠ some '/')
    (hne : s ≠ "") (hlast : ∀ c ∈ y.toList.getLast?, Text.isBlank c = false)
    (h : ofLine (Spec.anchor (s ++ "/" ++ y)) = .ok (some p)) (hp : p.negated = false)
    (hw : (p.weight? path).isSome = true) : ∃ rest, path = s.toList ++ '/' :: rest := by
  obtain ⟨more, hmore, hsegments⟩ := segments_start hs hhead hne hlast h hp
  obtain ⟨c, r, rfl, hc, hr⟩ := start_of_weight? hsegments hw
  by_cases hdeep : more.getLast? = some .deep
  · -- the ending accepts what stands before a slash
    rw [ending, hsegments, List.getLast?_append_of_ne_nil _ hmore, if_pos hdeep,
      Ending.weight?_below_isSome] at hr
    obtain ⟨r', rfl⟩ := List.head?_eq_some_iff.1 hr
    rcases head?_of_eats_stepsAfter hc with rfl | hc
    · exact ⟨r', by simp⟩
    · obtain ⟨c', rfl⟩ := List.head?_eq_some_iff.1 hc
      exact ⟨c' ++ '/' :: r', by simp⟩
  · obtain ⟨c', rfl⟩ := List.head?_eq_some_iff.1
      ((head?_of_eats_stepsAfter hc).resolve_left (ne_nil_of_eats_stepsAfter hmore hdeep hc))
    exact ⟨c' ++ r, by simp⟩

/-- **What a line matches that is a text** is the text or lies below it, but for a line feed. -/
theorem at_of_weight? {s : String} (hs : Literal s.toList) (hne : s ≠ "")
    (hhead : s.toList.head? ≠ some '/') (hslash : s.toList.getLast? ≠ some '/')
    (hlast : ∀ c ∈ s.toList.getLast?, Text.isBlank c = false)
    (h : ofLine (Spec.anchor s) = .ok (some p)) (hp : p.negated = false)
    (hw : (p.weight? path).isSome = true) :
    path = s.toList ∨ path = s.toList ++ ['\n'] ∨ ∃ rest, path = s.toList ++ '/' :: rest := by
  have hclosed : (Text.splitOn '/' s.toList).getLast? ≠ some [] := fun hnil =>
    (Text.getLast?_of_splitOn hnil).elim (mt String.toList_eq_nil_iff.1 hne) hslash
  have hdeep (part : List Char) (hpart : part ∈ Text.splitOn '/' s.toList) : part ≠ ['*', '*'] :=
    (hs.parts hpart).ne_deep
  have hcollapse : collapseDeep (Text.splitOn '/' s.toList ++ []) = Text.splitOn '/' s.toList ++ [] :=
    collapseDeep_append hdeep
  have hsegments := segments_of_anchor hhead hlast h hp
  rw [closeDeep_of_getLast? hclosed, ← List.append_nil (Text.splitOn '/' s.toList), hcollapse] at hsegments
  obtain ⟨rest, hrest, hsegments⟩ := mapM_segment? (fun part hpart => hs.parts hpart) hsegments
  obtain rfl : [] = rest := Option.some.inj hrest
  obtain ⟨c, r, rfl, rfl, hr⟩ := start_of_weight? hsegments hw
  have hname : p.ending = .name := by
    rw [ending, hsegments, List.append_nil, if_neg]
    intro hlast
    obtain ⟨_, -, hname⟩ := List.mem_map.1 (List.mem_of_getLast? hlast)
    cases hname
  rw [hname, Ending.weight?_name_isSome] at hr
  rcases hr with hr | rfl | rfl
  · obtain ⟨r', rfl⟩ := List.head?_eq_some_iff.1 hr
    exact .inr (.inr ⟨r', by simp⟩)
  · exact .inl (by simp)
  · exact .inr (.inl (by simp))

/-- **What a text as a line matches** lies at the text, with or without a slash at its end, or below
it, but for a line feed at the end of the path. -/
theorem start_of_literal {x : String} (hx : Literal x.toList) (hhead : x.toList.head? ≠ some '/')
    (hlast : ∀ c ∈ x.toList.getLast?, Text.isBlank c = false)
    (h : ofLine (Spec.anchor x) = .ok (some p)) (hp : p.negated = false)
    (hw : (p.weight? path).isSome = true) (hfeed : path.getLast? ≠ some '\n') :
    ∃ s, (x = s ∨ x = s ++ "/") ∧ (path = s.toList ∨ ∃ rest, path = s.toList ++ '/' :: rest) := by
  have hne : x ≠ "" := by
    rintro rfl
    cases h
  by_cases hslash : x.toList.getLast? = some '/'
  · obtain ⟨s, hs⟩ := List.getLast?_eq_some_iff.1 hslash
    have hcut : x = String.ofList s ++ "/" := by
      rw [← String.toList_inj, hs]
      simp
    have hsne : s ≠ [] := by
      rintro rfl
      rw [hs] at hhead
      exact hhead rfl
    rw [hs, List.head?_append_of_ne_nil _ hsne] at hhead
    have hliteral : Literal s := fun c hc => hx c (hs ▸ List.mem_append_left _ hc)
    rw [hcut, ← String.append_empty (s := _ ++ "/")] at h
    rw [← String.toList_ofList (l := s)] at hhead hliteral
    exact ⟨String.ofList s, .inr hcut, .inr (below_of_weight? hliteral hhead
      (fun h => hsne (String.ofList_eq_empty_iff.1 h)) (fun c hc => absurd hc (by simp)) h hp hw)⟩
  · rcases at_of_weight? hx hne hhead hslash hlast h hp hw with h | h | h
    · exact ⟨x, .inl rfl, .inl h⟩
    · exact absurd (by rw [h]; exact List.getLast?_concat) hfeed
    · exact ⟨x, .inl rfl, .inr h⟩

end Pattern

/-- Braces in the rest of a text do not concern its start. -/
theorem group?_append {s t : List Char} (hs : '\x7b' ∉ s) :
    group? (s ++ t) = (group? t).map fun (head, inner, tail) => (s ++ head, inner, tail) := by
  induction s with
  | nil => simp
  | cons c s ih =>
    rw [List.mem_cons, not_or] at hs
    rw [List.cons_append, group?, if_neg (Ne.symm hs.1), ih hs.2, Option.map_map]
    rfl

theorem expandFrom_append {s t : List Char} (hs : '\x7b' ∉ s) (fuel : Nat) :
    expandFrom fuel (s ++ t) = (expandFrom fuel t).map (s ++ ·) := by
  induction fuel generalizing t with
  | zero => rfl
  | succ fuel ih =>
    rw [expandFrom, expandFrom, group?_append hs]
    cases group? t with
    | none => rfl
    | some g =>
      obtain ⟨head, inner, tail⟩ := g
      dsimp only [Option.map_some]
      rw [List.map_flatMap]
      refine List.flatMap_congr fun option _ => ?_
      rw [List.append_assoc, List.append_assoc, ih, ← List.append_assoc head]

/-- **What a glob stands for** that starts with a text without braces starts with the text. -/
theorem mem_expandBraces_append {s t x : String} (hs : '\x7b' ∉ s.toList) :
    x ∈ expandBraces (s ++ t) ↔ ∃ y ∈ expandBraces t, x = s ++ y := by
  simp only [expandBraces, List.mem_eraseDups, List.mem_map, String.toList_append, List.count_append,
    List.count_eq_zero.2 hs, Nat.zero_add, expandFrom_append hs]
  constructor
  · rintro ⟨_, ⟨cs, hcs, rfl⟩, rfl⟩
    exact ⟨String.ofList cs, ⟨cs, hcs, rfl⟩, by rw [String.ofList_append, String.ofList_toList]⟩
  · rintro ⟨_, ⟨cs, hcs, rfl⟩, rfl⟩
    exact ⟨s.toList ++ cs, ⟨cs, hcs, rfl⟩, by rw [String.ofList_append, String.ofList_toList]⟩

/-- A text without braces stands for itself. -/
theorem expandBraces_of_not_mem {s : String} (hs : '\x7b' ∉ s.toList) : expandBraces s = [s] := by
  rw [expandBraces, List.count_eq_zero.2 hs, expandFrom, List.map_singleton, String.ofList_toList]
  rfl

namespace Spec

/-- What is decided in favour of a path is decided by a pattern that includes. -/
theorem exists_of_foldl_judge {ps : List Pattern} {s : List Char} {found : Option (Weight × Bool)}
    {w : Weight} (h : ps.foldl (judge s) found = some (w, true)) :
    found = some (w, true) ∨ ∃ p ∈ ps, p.negated = false ∧ (p.weight? s).isSome = true := by
  induction ps generalizing found with
  | nil => exact .inl h
  | cons p ps ih =>
    rcases ih h with hjudge | ⟨q, hq, hspec⟩
    · rw [judge] at hjudge
      split at hjudge
      · next w' hw =>
        split at hjudge
        · simp only [Option.some.injEq, Prod.mk.injEq, Bool.not_eq_true'] at hjudge
          exact .inr ⟨p, List.mem_cons_self, hjudge.2, by rw [hw]; rfl⟩
        · exact .inl hjudge
      · exact .inl hjudge
    · exact .inr ⟨q, List.mem_cons_of_mem _ hq, hspec⟩

/-- **What is matched** is matched by a pattern that includes. -/
theorem exists_of_isMatch {spec : Spec} {path : String} (h : spec.isMatch path = true) :
    ∃ p ∈ spec.patterns, p.negated = false ∧ (p.weight? (trimPath path.toList)).isSome = true := by
  rw [isMatch] at h
  split at h
  · next w included hv =>
    rw [h] at hv
    exact (exists_of_foldl_judge hv).resolve_left (fun h => by cases h)
  · cases h

end Spec
end Glob
end LintMerge
