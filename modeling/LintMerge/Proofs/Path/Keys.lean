/-
# Where a path lies as seen from a directory

The text of a path is read as the path (`Path.ofText_text`). A path with a root and without
`..` is in a normal form, in which all absolute paths are (`Path.Rooted`). Between two such
paths `Path.relative` is a way that leads from the one to the other when it is collapsed
(`Path.collapse_relative`), so a path can be found again by its key (`Path.absolute_key`); and
the key of what lies below the directory is the text that leads there (`Path.key_join`).

No way that is written out is shorter than the key of where it leads
(`Path.length_relative_collapse_le`).
-/

import Mathlib.Data.List.Induction
import LintMerge.Proofs.Path.Order

namespace LintMerge
namespace Path

/-- Segments that a text can have between its slashes. -/
def Written (ss : List String) : Prop := ∀ s ∈ ss, isSegment s = true ∧ '/' ∉ s.toList

theorem isSegment_iff {s : String} : isSegment s = true ↔ s ≠ "" ∧ s ≠ "." := by
  rw [isSegment, Bool.and_eq_true, bne_iff_ne, bne_iff_ne]

theorem Written.append {ss ts : List String} (hs : Written ss) (ht : Written ts) : Written (ss ++ ts) :=
  fun s h => (List.mem_append.1 h).elim (hs s) (ht s)

theorem Written.tail {s : String} {ss : List String} (h : Written (s :: ss)) : Written ss :=
  fun t ht => h t (List.mem_cons_of_mem _ ht)

/-- What is read of a text can be written. -/
theorem written_ofText (s : String) : Written (ofText s).segments := by
  intro part hpart
  obtain ⟨hmem, hsegment⟩ := List.mem_filter.1 hpart
  obtain ⟨cs, hcs, rfl⟩ := List.mem_map.1 hmem
  rw [String.toList_ofList]
  exact ⟨hsegment, Text.not_mem_of_mem_splitOn hcs⟩

theorem slashesOf_cases (s : List Char) : slashesOf s = 0 ∨ slashesOf s = 1 ∨ slashesOf s = 2 := by
  rw [slashesOf]
  split
  · exact .inl rfl
  · exact .inr (.inr rfl)
  · exact .inr (.inl rfl)

theorem slashes_ofText_le (s : String) : (ofText s).slashes ≤ 2 := by
  show slashesOf s.toList ≤ 2
  rcases slashesOf_cases s.toList with h | h | h <;> rw [h] <;> decide

/-- A text names a path with a root exactly when it starts with a slash. -/
theorem slashes_ofText_ne_zero_iff {s : String} : (ofText s).slashes ≠ 0 ↔ isAbsoluteText s = true := by
  rw [isAbsoluteText, ofText, decide_eq_true_iff]
  dsimp only
  cases s.toList with
  | nil => simp [slashesOf]
  | cons c rest =>
    by_cases hc : c = '/'
    · subst hc
      rw [slashesOf, List.takeWhile_cons_of_pos (by rfl), List.length_cons]
      split
      · next h => exact absurd h (Nat.succ_ne_zero _)
      · simp
      · simp
    · rw [slashesOf, List.takeWhile_cons_of_neg (by simpa using hc)]
      simp [hc]

theorem slashes_ofText_eq_zero {s : String} (hs : isAbsoluteText s = false) : (ofText s).slashes = 0 := by
  by_contra h
  rw [← Ne, slashes_ofText_ne_zero_iff, hs] at h
  cases h

theorem joined_cons_cons (s t : String) (ss : List String) :
    joined (s :: t :: ss) = s ++ "/" ++ joined (t :: ss) := String.intercalate_cons_cons

theorem parts_append (s t : String) : parts (s ++ "/" ++ t) = parts s ++ parts t := by
  rw [parts, String.toList_append, String.toList_append, List.append_assoc]
  show (Text.splitOn '/' (s.toList ++ '/' :: t.toList)).map _ = _
  rw [Text.splitOn_append, List.map_append]
  rfl

theorem splitOn_toList (s : String) : Text.splitOn '/' s.toList = (parts s).map String.toList := by
  simp [parts, Function.comp_def]

theorem parts_of_not_mem {s : String} (h : '/' ∉ s.toList) : parts s = [s] := by
  rw [parts, Text.splitOn_of_not_mem h, List.map_singleton, String.ofList_toList]

/-- **Segments are read as they are written.** -/
theorem parts_joined {ss : List String} (hss : Written ss) (hne : ss ≠ []) : parts (joined ss) = ss := by
  induction ss with
  | nil => exact absurd rfl hne
  | cons s ss ih =>
    have hs : parts s = [s] := parts_of_not_mem (hss s List.mem_cons_self).2
    cases ss with
    | nil => rwa [joined, String.intercalate_singleton]
    | cons t ss =>
      rw [joined_cons_cons, parts_append, hs, ih hss.tail (List.cons_ne_nil _ _)]
      rfl

/-- Segments in two parts are joined with a slash between the parts. -/
theorem joined_append {ss ts : List String} (hs : ss ≠ []) (ht : ts ≠ []) :
    joined (ss ++ ts) = joined ss ++ "/" ++ joined ts := by
  induction ss with
  | nil => exact absurd rfl hs
  | cons s ss ih =>
    cases ss with
    | nil =>
      obtain ⟨t, ts, rfl⟩ := List.exists_cons_of_ne_nil ht
      rw [List.singleton_append, joined_cons_cons, joined, joined, String.intercalate_singleton]
    | cons s' ss =>
      rw [List.cons_append, List.cons_append, joined_cons_cons, ← List.cons_append,
        ih (List.cons_ne_nil _ _), joined_cons_cons]
      simp only [String.append_assoc]

/-- The text that goes on from some segments. -/
def onward (start : List String) (s : String) : String := if start = [] then s else joined start ++ "/" ++ s

@[simp] theorem onward_nil (s : String) : onward [] s = s := if_pos rfl

theorem toList_onward {start : List String} (hne : start ≠ []) (s : String) :
    (onward start s).toList = (joined start).toList ++ '/' :: s.toList := by
  rw [onward, if_neg hne]
  simp

theorem parts_onward {start : List String} (hstart : Written start) (s : String) :
    parts (onward start s) = start ++ parts s := by
  rw [onward]
  split
  · next hnil => rw [hnil, List.nil_append]
  · next hne => rw [parts_append, parts_joined hstart hne]

theorem joined_append_eq_onward (start : List String) {more : List String} (hmore : more ≠ []) :
    joined (start ++ more) = onward start (joined more) := by
  rw [onward]
  split
  · next hnil => rw [hnil, List.nil_append]
  · next hne => exact joined_append hne hmore

theorem filter_parts_joined {ss : List String} (hss : Written ss) :
    (parts (joined ss)).filter isSegment = ss := by
  cases ss with
  | nil => rfl
  | cons s ss =>
    rw [parts_joined hss (List.cons_ne_nil _ _), List.filter_eq_self]
    exact fun t ht => (hss t ht).1

/-- Slashes at the start are no segments. -/
theorem filter_parts_slashes (n : Nat) (s : String) :
    (parts (String.ofList (List.replicate n '/') ++ s)).filter isSegment = (parts s).filter isSegment := by
  induction n with
  | zero => rw [List.replicate_zero, String.ofList_nil, String.empty_append]
  | succ n ih =>
    have hcons : (String.ofList (List.replicate (n + 1) '/') ++ s) =
        "" ++ "/" ++ (String.ofList (List.replicate n '/') ++ s) := by
      rw [← String.toList_inj]
      simp [List.replicate_succ]
    rw [hcons, parts_append, List.filter_append, ih]
    rfl

/-- Segments are joined to a regular text. -/
theorem regular_joined {ss : List String} (hss : Written ss) (hne : ss ≠ []) :
    Text.Regular (joined ss).toList := by
  intro part hpart
  have hmem : String.ofList part ∈ ss := by
    rw [← parts_joined hss hne]
    exact List.mem_map_of_mem hpart
  obtain ⟨hempty, hdot⟩ := isSegment_iff.1 (hss _ hmem).1
  exact ⟨fun h => hempty (by rw [h, String.ofList_nil]), fun h => hdot (by rw [h])⟩

theorem regular_onward {start : List String} {s : String} (h : Text.Regular (onward start s).toList) :
    Text.Regular s.toList := by
  by_cases hnil : start = []
  · rwa [hnil, onward_nil] at h
  · rw [toList_onward hnil] at h
    exact h.right

theorem head?_onward_ne {start : List String} {s : String} {c : Char} (hstart : Written start)
    (hjoined : (joined start).toList.head? ≠ some c) (hs : s.toList.head? ≠ some c) :
    (onward start s).toList.head? ≠ some c := by
  by_cases hnil : start = []
  · rwa [hnil, onward_nil]
  · rwa [toList_onward hnil, List.head?_append_of_ne_nil _ (regular_joined hstart hnil).ne_nil]

theorem getLast?_onward (start : List String) {s : String} (hs : s.toList ≠ []) :
    (onward start s).toList.getLast? = s.toList.getLast? := by
  by_cases hnil : start = []
  · rw [hnil, onward_nil]
  · rw [toList_onward hnil, List.getLast?_append_of_ne_nil _ (List.cons_ne_nil _ _),
      List.getLast?_cons_of_ne_nil hs]

/-- No text of segments starts with a slash. -/
theorem head?_joined_ne {ss : List String} (hss : Written ss) : (joined ss).toList.head? ≠ some '/' := by
  cases ss with
  | nil => decide
  | cons s ss => exact (regular_joined hss (List.cons_ne_nil _ _)).head?_ne

/-- The characters of joined segments. -/
theorem mem_joined {ss : List String} {c : Char} (h : c ∈ (joined ss).toList) :
    c = '/' ∨ ∃ s ∈ ss, c ∈ s.toList := by
  induction ss with
  | nil => cases h
  | cons s ss ih =>
    cases ss with
    | nil => exact .inr ⟨s, List.mem_cons_self, by rwa [joined, String.intercalate_singleton] at h⟩
    | cons t ss =>
      rw [joined_cons_cons, String.toList_append, String.toList_append, List.mem_append, List.mem_append]
        at h
      rcases h with (h | h) | h
      · exact .inr ⟨s, List.mem_cons_self, h⟩
      · exact .inl (List.mem_singleton.1 h)
      · exact (ih h).imp_right fun ⟨t, ht, hc⟩ => ⟨t, List.mem_cons_of_mem _ ht, hc⟩

/-- The text of a path without a root. -/
theorem text_of_ne_nil {ss : List String} (hne : ss ≠ []) : text ⟨0, ss⟩ = joined ss := by
  rw [text, if_neg fun h => hne h.2, List.replicate_zero, String.ofList_nil, String.empty_append]

/-- Segments that are read of a text consist of its characters. -/
theorem subset_of_mem_ofText {s segment : String} (h : segment ∈ (ofText s).segments) :
    segment.toList ⊆ s.toList := by
  obtain ⟨cs, hcs, rfl⟩ := List.mem_map.1 (List.mem_filter.1 h).1
  rw [String.toList_ofList]
  exact Text.subset_of_mem_splitOn hcs

/-- **The text of a path is read as the path.** -/
theorem ofText_text {p : Path} (hp : Written p.segments) (hslashes : p.slashes ≤ 2) : ofText p.text = p := by
  obtain ⟨n, ss⟩ := p
  rw [text]
  split
  · next h =>
    obtain ⟨rfl, rfl⟩ := h
    decide
  · have hrun : (List.replicate n '/' ++ (joined ss).toList).takeWhile (· = '/') = List.replicate n '/' := by
      rw [List.takeWhile_append_of_pos fun c hc => decide_eq_true (List.eq_of_mem_replicate hc)]
      have hnone : (joined ss).toList.takeWhile (· = '/') = [] := by
        cases h : (joined ss).toList with
        | nil => rfl
        | cons c rest =>
          have hhead := head?_joined_ne hp
          rw [h] at hhead
          exact List.takeWhile_cons_of_neg (by simpa using hhead)
      rw [hnone, List.append_nil]
    have hroot : slashesOf (String.ofList (List.replicate n '/') ++ joined ss).toList = n := by
      rw [String.toList_append, String.toList_ofList, slashesOf, hrun, List.length_replicate]
      have hn : n = 0 ∨ n = 1 ∨ n = 2 := by
        dsimp only at hslashes
        omega
      rcases hn with rfl | rfl | rfl <;> rfl
    rw [ofText, hroot, filter_parts_slashes, filter_parts_joined hp]

/-- A path with a root on which no segment leads up: the form of an absolute path. -/
structure Rooted (p : Path) : Prop where
  slashes : p.slashes = 1 ∨ p.slashes = 2
  written : Written p.segments
  straight : ".." ∉ p.segments

theorem Rooted.ofText_text {p : Path} (hp : p.Rooted) : ofText p.text = p := by
  refine Path.ofText_text hp.written ?_
  rcases hp.slashes with h | h <;> omega

theorem Rooted.isAbsoluteText {p : Path} (hp : p.Rooted) : isAbsoluteText p.text = true := by
  rw [← slashes_ofText_ne_zero_iff, hp.ofText_text]
  rcases hp.slashes with h | h <;> omega

variable {done s t start target : List String}

theorem collapseFrom_append (hs : ".." ∉ s) : collapseFrom done (s ++ t) = collapseFrom (s.reverse ++ done) t := by
  induction s generalizing done with
  | nil => rfl
  | cons a s ih =>
    rw [List.mem_cons, not_or] at hs
    rw [List.cons_append, collapseFrom, if_neg (Ne.symm hs.1), ih hs.2, List.reverse_cons,
      List.append_assoc]
    rfl

/-- Segments on which none leads up are not changed. -/
theorem collapse_of_straight (hs : ".." ∉ s) : collapse s = s := by
  have h : collapseFrom [] (s ++ []) = collapseFrom (s.reverse ++ []) [] := collapseFrom_append hs
  rw [List.append_nil, List.append_nil] at h
  rw [collapse, h, collapseFrom, List.reverse_reverse]

/-- No segment of a collapsed path leads up. -/
theorem straight_collapseFrom (hdone : ".." ∉ done) : ".." ∉ collapseFrom done s := by
  induction s generalizing done with
  | nil => rwa [collapseFrom, List.mem_reverse]
  | cons a s ih =>
    rw [collapseFrom]
    split
    · exact ih fun h => hdone (List.mem_of_mem_tail h)
    · next ha =>
      refine ih ?_
      rw [List.mem_cons, not_or]
      exact ⟨Ne.symm ha, hdone⟩

/-- Collapsing makes no segments. -/
theorem mem_of_mem_collapseFrom {a : String} (h : a ∈ collapseFrom done s) : a ∈ done ∨ a ∈ s := by
  induction s generalizing done with
  | nil => exact .inl (List.mem_reverse.1 h)
  | cons b s ih =>
    rw [collapseFrom] at h
    split at h
    · exact (ih h).imp List.mem_of_mem_tail (List.mem_cons_of_mem _)
    · rcases ih h with h | h
      · rcases List.mem_cons.1 h with rfl | h
        · exact .inr List.mem_cons_self
        · exact .inl h
      · exact .inr (List.mem_cons_of_mem _ h)

/-- Every absolute path is in normal form. -/
theorem rooted_absolute {root : Path} (hroot : root.Rooted) (s : String) : (root.absolute s).Rooted := by
  have hjoin : ((root.join (ofText s)).slashes = 1 ∨ (root.join (ofText s)).slashes = 2) ∧
      Written (root.join (ofText s)).segments := by
    rw [join]
    split
    · next habs =>
      have hslashes : (ofText s).slashes ≠ 0 := by simpa [isAbsolute] using habs
      exact ⟨(slashesOf_cases s.toList).resolve_left hslashes, written_ofText s⟩
    · exact ⟨hroot.slashes, hroot.written.append (written_ofText s)⟩
  refine ⟨hjoin.1, fun a ha => ?_, straight_collapseFrom List.not_mem_nil⟩
  exact hjoin.2 a ((mem_of_mem_collapseFrom ha).resolve_left List.not_mem_nil)

/-- A path in normal form is the same from everywhere. -/
theorem Rooted.absolute_text {p : Path} (hp : p.Rooted) (root : Path) : root.absolute p.text = p := by
  have habs : p.isAbsolute = true := by
    rw [isAbsolute, bne_iff_ne]
    rcases hp.slashes with h | h <;> omega
  rw [absolute, hp.ofText_text, join, if_pos habs, collapse_of_straight hp.straight]

/-- Going up from the end of some segments leads back to their start. -/
theorem collapseFrom_up (u : List String) (hu : u.length = s.length) :
    collapseFrom (u ++ done) (s.map (fun _ => "..") ++ t) = collapseFrom done t := by
  induction s generalizing u with
  | nil =>
    rw [List.length_eq_zero_iff.1 hu]
    rfl
  | cons a s ih =>
    cases u with
    | nil => cases hu
    | cons b u =>
      show collapseFrom (b :: (u ++ done)) (".." :: (s.map (fun _ => "..") ++ t)) = _
      rw [collapseFrom, if_pos rfl]
      exact ih u (Nat.succ.inj hu)

/-- **The way from one directory to another leads there.** -/
theorem collapse_relative (hstart : ".." ∉ start) (htarget : ".." ∉ target) :
    collapse (start ++ relative start target) = target := by
  suffices h : ∀ done, collapseFrom done (start ++ relative start target) = collapseFrom done target by
    have hnil := h []
    rwa [← collapse, ← collapse, collapse_of_straight htarget] at hnil
  induction start, target using relative.induct with
  | case1 s b t ih =>
    intro done
    rw [List.mem_cons, not_or] at hstart htarget
    rw [relative, if_pos rfl, List.cons_append, collapseFrom, collapseFrom, if_neg (Ne.symm hstart.1),
      if_neg (Ne.symm hstart.1), ih hstart.2 htarget.2]
  | case2 a s b t hab =>
    intro done
    rw [relative, if_neg hab, collapseFrom_append hstart]
    exact collapseFrom_up (s := a :: s) _ (by simp)
  | case3 s t hcons =>
    intro done
    rw [relative, collapseFrom_append hstart]
    · exact collapseFrom_up _ (by simp)
    · exact hcons

/-- The way to what lies below is what lies below. -/
theorem relative_append (start t : List String) : relative start (start ++ t) = t := by
  induction start with
  | nil => cases t <;> rfl
  | cons a start ih => rw [List.cons_append, relative, if_pos rfl, ih]

/-- The segments of a way lead up or are those of where it leads. -/
theorem mem_relative {a : String} (h : a ∈ relative start target) : a = ".." ∨ a ∈ target := by
  induction start, target using relative.induct with
  | case1 s b t ih =>
    rw [relative, if_pos rfl] at h
    exact (ih h).imp_right (List.mem_cons_of_mem _)
  | case2 c s b t hcb =>
    rw [relative, if_neg hcb] at h
    rw [List.mem_append, List.mem_cons] at h
    rcases h with (rfl | h) | h
    · exact .inl rfl
    · obtain ⟨_, -, rfl⟩ := List.mem_map.1 h
      exact .inl rfl
    · exact .inr h
  | case3 s t hcons =>
    rw [relative] at h
    · rcases List.mem_append.1 h with h | h
      · obtain ⟨_, -, rfl⟩ := List.mem_map.1 h
        exact .inl rfl
      · exact .inr h
    · exact hcons

theorem written_relative (htarget : Written target) : Written (relative start target) := by
  intro a ha
  rcases mem_relative ha with rfl | ha
  · exact ⟨by decide, by decide⟩
  · exact htarget a ha

/-- A way leads up first, or it leads to what lies below. -/
theorem relative_cases (start target : List String) :
    (∃ more, relative start target = ".." :: more) ∨ target = start ++ relative start target := by
  induction start, target using relative.induct with
  | case1 s b t ih =>
    rw [relative, if_pos rfl]
    exact ih.imp_right fun h => congrArg (b :: ·) h
  | case2 a s b t hab =>
    rw [relative, if_neg hab]
    exact .inl ⟨_, rfl⟩
  | case3 s t hcons =>
    rw [relative]
    · cases s with
      | nil => exact .inr rfl
      | cons a s => exact .inl ⟨_, rfl⟩
    · exact hcons

/-- What is collapsed onto some segments keeps a start of them and adds segments of its own. -/
theorem collapseFrom_eq_append (done s : List String) :
    ∃ kept added, collapseFrom done s = kept ++ added ∧ kept <+: done.reverse ∧ added ⊆ s := by
  induction s generalizing done with
  | nil => exact ⟨done.reverse, [], by simp [collapseFrom], List.prefix_rfl, List.Subset.refl _⟩
  | cons a s ih =>
    rw [collapseFrom]
    split
    · obtain ⟨kept, added, h, hkept, hadded⟩ := ih done.tail
      have htail : done.tail.reverse <+: done.reverse := List.reverse_prefix.2 (List.tail_suffix done)
      exact ⟨kept, added, h, hkept.trans htail, fun b hb => List.mem_cons_of_mem _ (hadded hb)⟩
    · obtain ⟨kept, added, h, hkept, hadded⟩ := ih (a :: done)
      rw [List.reverse_cons] at hkept
      rcases List.prefix_concat_iff.1 hkept with rfl | hkept
      · refine ⟨done.reverse, a :: added, by rw [h, List.append_assoc]; rfl, List.prefix_rfl, ?_⟩
        exact List.cons_subset_cons a hadded
      · exact ⟨kept, added, h, hkept, fun b hb => List.mem_cons_of_mem _ (hadded hb)⟩

/-- Where a text leads below some segments, the rest of the way is written in the text. -/
theorem subset_of_collapse_eq_append {rest : List String} (hstart : ".." ∉ start)
    (h : collapse (start ++ s) = start ++ rest) : rest ⊆ s := by
  obtain ⟨kept, added, hcollapse, hkept, hadded⟩ := collapseFrom_eq_append start.reverse s
  rw [List.reverse_reverse] at hkept
  obtain ⟨u, rfl⟩ := hkept
  have happend : collapse (kept ++ u ++ s) = collapseFrom (kept ++ u).reverse s := by
    rw [collapse, collapseFrom_append hstart, List.append_nil]
  have hrest : u ++ rest = added := by
    rw [happend, hcollapse, List.append_assoc] at h
    exact (List.append_cancel_left h).symm
  exact fun b hb => hadded (hrest ▸ List.mem_append_right u hb)

/-- What two ways have in common at their start is no part of the way from one to the other. -/
theorem relative_append_append (front start target : List String) :
    relative (front ++ start) (front ++ target) = relative start target := by
  induction front with
  | nil => rfl
  | cons a front ih => rw [List.cons_append, List.cons_append, relative, if_pos rfl, ih]

/-- The way to where a text leads goes up or is written in the text. -/
theorem mem_relative_absolute {root : Path} {s a : String}
    (h : a ∈ relative (collapse root.segments)
      (absolute ⟨root.slashes, collapse root.segments⟩ s).segments) :
    a = ".." ∨ a ∈ (ofText s).segments := by
  have hstraight : ".." ∉ collapse root.segments := straight_collapseFrom List.not_mem_nil
  rw [absolute, join] at h
  split at h
  · exact (mem_relative h).imp_right fun h => (mem_of_mem_collapseFrom h).resolve_left List.not_mem_nil
  · dsimp only at h
    generalize collapse root.segments = start at h hstraight
    obtain ⟨kept, added, hcollapse, hkept, hadded⟩ :=
      collapseFrom_eq_append start.reverse (ofText s).segments
    rw [List.reverse_reverse] at hkept
    obtain ⟨rest, hrest⟩ := hkept
    rw [collapse, collapseFrom_append hstraight, List.append_nil, hcollapse, ← hrest,
      relative_append_append] at h
    exact (mem_relative h).imp_right (hadded ·)

/-- **A key starts with a character other than a slash**, whatever path it is seen from. -/
theorem head?_key (root : Path) (s : String) : ∃ c, (root.key s).toList.head? = some c ∧ c ≠ '/' := by
  have hjoined {ss : List String} (hss : Written ss) :
      ∃ c, (text ⟨0, ss⟩).toList.head? = some c ∧ c ≠ '/' := by
    cases ss with
    | nil => exact ⟨'.', rfl, by decide⟩
    | cons a ss =>
      have hregular := regular_joined hss (List.cons_ne_nil _ _)
      rw [text_of_ne_nil (List.cons_ne_nil _ _)]
      cases hchars : (joined (a :: ss)).toList with
      | nil => exact absurd hchars hregular.ne_nil
      | cons c cs => exact ⟨c, rfl, fun h => hregular.head?_ne (by rw [hchars, h]; rfl)⟩
  have hstraight : ".." ∉ collapse root.segments := straight_collapseFrom List.not_mem_nil
  rw [key]
  dsimp only
  rcases relative_cases (collapse root.segments)
    (absolute ⟨root.slashes, collapse root.segments⟩ s).segments with ⟨more, hup⟩ | hbelow
  · rw [hup, text_of_ne_nil (List.cons_ne_nil _ _)]
    refine ⟨'.', ?_, by decide⟩
    cases more with
    | nil => rfl
    | cons a more => rw [joined_cons_cons, String.toList_append, String.toList_append]; rfl
  · refine hjoined fun a ha => written_ofText s a ?_
    rw [absolute, join] at hbelow ha
    split at hbelow
    · next habs =>
      rw [if_pos habs] at ha
      have hmem : a ∈ collapse (ofText s).segments := by
        dsimp only at hbelow
        rw [hbelow]
        exact List.mem_append_right _ ha
      exact (mem_of_mem_collapseFrom hmem).resolve_left List.not_mem_nil
    · next habs =>
      rw [if_neg habs] at ha
      exact subset_of_collapse_eq_append hstraight hbelow ha

/-- A key has no root. -/
theorem not_isAbsoluteText_key (root : Path) (s : String) : isAbsoluteText (root.key s) = false := by
  obtain ⟨c, hc, hslash⟩ := head?_key root s
  rw [isAbsoluteText, hc]
  exact decide_eq_false fun h => hslash (Option.some.inj h)

theorem key_ne_empty (root : Path) (s : String) : root.key s ≠ "" := by
  obtain ⟨c, hc, -⟩ := head?_key root s
  intro h
  rw [h] at hc
  cases hc

variable {root : Path}

/-- The key of a text is the text of the way to where it leads. -/
theorem key_eq (hroot : root.Rooted) (s : String) :
    root.key s = text ⟨0, relative root.segments (root.absolute s).segments⟩ := by
  have hcollapse : (⟨root.slashes, collapse root.segments⟩ : Path) = root := by
    rw [collapse_of_straight hroot.straight]
  rw [key]
  dsimp only
  rw [hcollapse, collapse_of_straight hroot.straight]

theorem ofText_key (hroot : root.Rooted) (s : String) :
    ofText (root.key s) = ⟨0, relative root.segments (root.absolute s).segments⟩ := by
  rw [key_eq hroot]
  exact ofText_text (written_relative (rooted_absolute hroot s).written) (Nat.zero_le 2)

/-- Where a key leads, from the root of the directory. -/
theorem absolute_key_eq (hroot : root.Rooted) (s : String) :
    root.absolute (root.key s) = ⟨root.slashes, (root.absolute s).segments⟩ := by
  rw [absolute, ofText_key hroot, join, if_neg (by simp [isAbsolute])]
  dsimp only
  rw [collapse_relative hroot.straight (rooted_absolute hroot s).straight]

/-- **A path is found by its key** where it has the root of the directory. -/
theorem absolute_key (hroot : root.Rooted) {s : String} (hs : (root.absolute s).slashes = root.slashes) :
    root.absolute (root.key s) = root.absolute s := by
  rw [absolute_key_eq hroot, ← hs]

/-- A key is its own key. -/
theorem key_key (hroot : root.Rooted) (s : String) : root.key (root.key s) = root.key s := by
  rw [key_eq hroot, absolute_key_eq hroot, ← key_eq hroot]

/-- The characters of a key are those of the text, but for those of `..` and slashes. -/
theorem mem_key {root : Path} {s : String} {c : Char} (h : c ∈ (root.key s).toList) :
    c = '.' ∨ c = '/' ∨ c ∈ s.toList := by
  rw [key] at h
  dsimp only at h
  by_cases hnil : relative (collapse root.segments)
      (absolute ⟨root.slashes, collapse root.segments⟩ s).segments = []
  · rw [hnil] at h
    exact .inl (List.mem_singleton.1 h)
  · rw [text_of_ne_nil hnil] at h
    rcases mem_joined h with rfl | ⟨segment, hsegment, hc⟩
    · exact .inr (.inl rfl)
    · rcases mem_relative_absolute hsegment with rfl | hsegment
      · exact .inl (by simpa using hc)
      · exact .inr (.inr (subset_of_mem_ofText hsegment hc))

/-- Texts that lead to one path have one key. -/
theorem key_congr (hroot : root.Rooted) {s s' : String} (h : root.absolute s = root.absolute s') :
    root.key s = root.key s' := by
  rw [key_eq hroot, key_eq hroot, h]

/-- Segments below a directory of which none leads up. -/
theorem absolute_of_straight (hroot : root.Rooted) {s : String} (hs : isAbsoluteText s = false)
    (hup : ".." ∉ (ofText s).segments) : root.absolute s = root.join (ofText s) := by
  have hslashes := slashes_ofText_eq_zero hs
  have hsegments : ".." ∉ root.segments ++ (ofText s).segments := by
    rw [List.mem_append, not_or]
    exact ⟨hroot.straight, hup⟩
  rw [absolute, join, if_neg (by simp [isAbsolute, hslashes]), collapse_of_straight hsegments]

/-- **The key of a text on which no segment leads up** is what is read of the text. -/
theorem key_of_straight (hroot : root.Rooted) {s : String} (hs : isAbsoluteText s = false)
    (hup : ".." ∉ (ofText s).segments) : root.key s = (ofText s).text := by
  have hslashes := slashes_ofText_eq_zero hs
  have hofText : ofText s = ⟨0, (ofText s).segments⟩ := by rw [← hslashes]
  rw [key_eq hroot, absolute_of_straight hroot hs hup, join, if_neg (by simp [isAbsolute, hslashes])]
  dsimp only
  rw [relative_append, ← hofText]

/-- The parts of a text are joined to the text. -/
theorem joined_parts (s : String) : joined (parts s) = s := by
  have hjoin (ls : List (List Char)) :
      "/".toList.intercalate ls = Text.joinWith ['/'] ls := by
    induction ls with
    | nil => rfl
    | cons l ls ih =>
      cases ls with
      | nil => simp [Text.joinWith]
      | cons l' ls => rw [List.intercalate_cons_cons, Text.joinWith_cons_cons, ih]; rfl
  rw [← String.toList_inj, joined, String.toList_intercalate, hjoin, parts, List.map_map]
  simp only [Function.comp_def, String.toList_ofList, List.map_id']
  exact Text.joinWith_splitOn '/' s.toList

theorem text_of_regular {s : String} (hs : Text.Regular s.toList) : (ofText s).text = s := by
  have hne : parts s ≠ [] := by
    rw [parts, Ne, List.map_eq_nil_iff]
    exact Text.splitOn_ne_nil _ _
  rw [ofText_regular hs, text_of_ne_nil hne, joined_parts]

/-- **The key of what lies below a directory** is the text that leads there. -/
theorem key_join (hroot : root.Rooted) {s : String} (hs : Text.Regular s.toList)
    (hup : ".." ∉ parts s) :
    (root.join (ofText s)).Rooted ∧ root.key (root.join (ofText s)).text = s := by
  have hrelative : isAbsoluteText s = false := by
    rw [isAbsoluteText, decide_eq_false_iff_not]
    exact hs.head?_ne
  have hstraight : ".." ∉ (ofText s).segments := by rwa [ofText_regular hs]
  have habsolute := absolute_of_straight hroot hrelative hstraight
  have hrooted : (root.join (ofText s)).Rooted := habsolute ▸ rooted_absolute hroot s
  refine ⟨hrooted, ?_⟩
  rw [key_congr hroot ((hrooted.absolute_text root).trans habsolute.symm),
    key_of_straight hroot hrelative hstraight, text_of_regular hs]

/-- A last segment is a step from where the others lead. -/
theorem collapse_concat (ss : List String) (a : String) :
    collapse (ss ++ [a]) = if a = ".." then (collapse ss).dropLast else collapse ss ++ [a] := by
  suffices h : ∀ done, collapseFrom done (ss ++ [a]) =
      if a = ".." then (collapseFrom done ss).dropLast else collapseFrom done ss ++ [a] from h []
  induction ss with
  | nil =>
    intro done
    rw [List.nil_append, collapseFrom, collapseFrom, collapseFrom, collapseFrom]
    split
    · rw [List.dropLast_reverse]
    · rw [List.reverse_cons]
  | cons b ss ih =>
    intro done
    rw [List.cons_append, collapseFrom, collapseFrom]
    split
    · exact ih _
    · exact ih _

theorem relative_nil_left (target : List String) : relative [] target = target := by
  cases target <;> rfl

theorem relative_nil_right (start : List String) : relative start [] = start.map fun _ => ".." := by
  cases start <;> simp [relative]

/-- A segment more makes the way longer by one at most. -/
theorem length_relative_concat_le (start target : List String) (a : String) :
    (relative start (target ++ [a])).length ≤ (relative start target).length + 1 := by
  induction start, target using relative.induct with
  | case1 s b t ih =>
    rw [List.cons_append, relative, relative, if_pos rfl, if_pos rfl]
    exact ih
  | case2 c s b t hcb =>
    rw [List.cons_append, relative, relative, if_neg hcb, if_neg hcb]
    simp only [List.length_cons, List.length_append, List.length_map, List.length_nil]
    omega
  | case3 s t hcons =>
    cases s with
    | nil =>
      rw [relative_nil_left, relative_nil_left, List.length_append]
      exact Nat.le_refl _
    | cons c s =>
      cases t with
      | nil =>
        rw [List.nil_append, relative, relative_nil_right, relative_nil_right]
        split <;> simp only [List.length_cons, List.length_append, List.length_map, List.length_nil] <;> omega
      | cons b t => exact (hcons c s b t rfl rfl).elim

/-- A segment less makes the way longer by one at most. -/
theorem length_relative_dropLast_le (start target : List String) :
    (relative start target.dropLast).length ≤ (relative start target).length + 1 := by
  induction start, target using relative.induct with
  | case1 s b t ih =>
    cases t with
    | nil =>
      rw [List.dropLast_singleton, relative, if_pos rfl, relative_nil_right, relative_nil_right]
      simp
    | cons b' t =>
      rw [List.dropLast_cons_of_ne_nil (List.cons_ne_nil _ _), relative, relative, if_pos rfl, if_pos rfl]
      exact ih
  | case2 c s b t hcb =>
    cases t with
    | nil =>
      rw [List.dropLast_singleton, relative, if_neg hcb, relative_nil_right]
      simp only [List.length_cons, List.length_append, List.length_map, List.length_nil]
      omega
    | cons b' t =>
      rw [List.dropLast_cons_of_ne_nil (List.cons_ne_nil _ _), relative, relative, if_neg hcb, if_neg hcb]
      simp only [List.length_cons, List.length_append, List.length_map, List.length_dropLast]
      omega
  | case3 s t hcons =>
    cases s with
    | nil =>
      rw [relative_nil_left, relative_nil_left, List.length_dropLast]
      omega
    | cons c s =>
      cases t with
      | nil => exact Nat.le_succ _
      | cons b t => exact (hcons c s b t rfl rfl).elim

/-- **No way is shorter** than the one between where it starts and where it leads. -/
theorem length_relative_collapse_le (hstart : ".." ∉ start) (ss : List String) :
    (relative start (collapse (start ++ ss))).length ≤ ss.length := by
  induction ss using List.reverseRec with
  | nil =>
    have h := relative_append start []
    rw [List.append_nil] at h
    rw [List.append_nil, collapse_of_straight hstart, h]
  | append_singleton ss a ih =>
    rw [← List.append_assoc, collapse_concat, List.length_append]
    split
    · exact (length_relative_dropLast_le _ _).trans (Nat.succ_le_succ ih)
    · exact (length_relative_concat_le _ _ _).trans (Nat.succ_le_succ ih)

end Path
end LintMerge
