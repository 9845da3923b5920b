/-
# What a requested path is compared with

Issues are filtered by their paths: a request keeps those at its path and below it. A request
is spelled by the caller, and for the comparison it is rid of `./` at its start, of slashes at
its end, and of what reading a path drops. This gives the key of the request, which is how the
paths of issues are spelled, when the request has a root, and when no segment of it leads up and
no slash follows a `./` at its start (`Issue.requested_eq_key`). Other requests are compared
as they are spelled, and keep nothing at their own key (`Issue.mem_filter_self_iff`).
-/

import Mathlib.Data.List.TakeWhile
import LintMerge.Proofs.Path.Keys
import LintMerge.Tree.Files

namespace LintMerge

theorem hasGlob_eq_false_iff {s : String} :
    hasGlob s = false ↔ ∀ c ∈ s.toList, c ∉ "*?[]\x7b\x7d".toList := by
  rw [hasGlob, List.any_eq_false]
  simp only [decide_eq_true_eq]

namespace Path

/-- What is read of a text between slashes is read of each side. -/
theorem segments_ofText_append (s t : String) :
    (ofText (s ++ "/" ++ t)).segments = (ofText s).segments ++ (ofText t).segments := by
  show (parts (s ++ "/" ++ t)).filter isSegment = _
  rw [parts_append, List.filter_append]
  rfl

/-- The parts of a text before slashes, and an empty one for each slash. -/
theorem parts_append_slashes (s : String) (n : Nat) :
    parts (s ++ String.ofList (List.replicate n '/')) = parts s ++ List.replicate n "" := by
  induction n with
  | zero => rw [List.replicate_zero, String.ofList_nil, String.append_empty, List.replicate_zero, List.append_nil]
  | succ n ih =>
    have hcons : s ++ String.ofList (List.replicate (n + 1) '/') =
        s ++ String.ofList (List.replicate n '/') ++ "/" ++ "" := by
      rw [← String.toList_inj]
      simp [List.replicate_succ']
    rw [hcons, parts_append, ih, List.append_assoc, List.replicate_succ']
    rfl

/-- What stands before slashes at the end of a text. -/
theorem segments_ofText_slashes (s : String) (n : Nat) :
    (ofText (s ++ String.ofList (List.replicate n '/'))).segments = (ofText s).segments := by
  have hnone : (List.replicate n "").filter isSegment = [] := by simp [isSegment]
  show (parts (s ++ String.ofList (List.replicate n '/'))).filter isSegment = _
  rw [parts_append_slashes, List.filter_append, hnone, List.append_nil]
  rfl

end Path

namespace Issue

open LintMerge.Path (ofText isAbsoluteText)

theorem segments_dropHere (s : List Char) :
    (ofText (String.ofList (dropHere s))).segments = (ofText (String.ofList s)).segments := by
  induction s using dropHere.induct with
  | case1 rest ih =>
    have hcons : String.ofList ('.' :: '/' :: rest) = "." ++ "/" ++ String.ofList rest := by
      rw [← String.toList_inj]
      simp
    rw [dropHere, ih, hcons, Path.segments_ofText_append]
    rfl
  | case2 s hs =>
    rw [dropHere]
    exact hs

/-- Slashes at the end of a text are all that is dropped there. -/
theorem exists_append_dropSlashes (s : List Char) : ∃ n, s = dropSlashes s ++ List.replicate n '/' := by
  have hrun : s.reverse.takeWhile (· = '/') =
      List.replicate (s.reverse.takeWhile (· = '/')).length '/' :=
    List.eq_replicate_of_mem fun c hc => by simpa using List.mem_takeWhile_imp hc
  refine ⟨(s.reverse.takeWhile (· = '/')).length, ?_⟩
  calc s = (s.reverse.takeWhile (· = '/') ++ s.reverse.dropWhile (· = '/')).reverse := by
        rw [List.takeWhile_append_dropWhile, List.reverse_reverse]
    _ = dropSlashes s ++ (s.reverse.takeWhile (· = '/')).reverse := List.reverse_append
    _ = dropSlashes s ++ List.replicate (s.reverse.takeWhile (· = '/')).length '/' := by
        conv_lhs => rw [hrun, List.reverse_replicate]

theorem dropSlashes_regular {s : List Char} (hs : Text.Regular s) : dropSlashes s = s := by
  obtain ⟨n, hn⟩ := exists_append_dropSlashes s
  cases n with
  | zero =>
    rw [List.replicate_zero, List.append_nil] at hn
    exact hn.symm
  | succ n =>
    refine absurd ?_ hs.getLast?_ne
    rw [hn, List.replicate_succ', ← List.append_assoc]
    exact List.getLast?_concat

theorem segments_dropSlashes (s : List Char) :
    (ofText (String.ofList (dropSlashes s))).segments = (ofText (String.ofList s)).segments := by
  obtain ⟨n, hn⟩ := exists_append_dropSlashes s
  have h := Path.segments_ofText_slashes (String.ofList (dropSlashes s)) n
  rw [← String.ofList_append, ← hn] at h
  exact h.symm

/-- A text without `./` at its start and slashes at its end. -/
def bare (s : String) : String := String.ofList (dropSlashes (dropHere s.toList))

theorem segments_bare (s : String) : (ofText (bare s)).segments = (ofText s).segments := by
  rw [bare, segments_dropSlashes, segments_dropHere, String.ofList_toList]

theorem requested_eq (root : Path) (pattern : String) :
    requested (some root) pattern = (ofText (bare (Tree.seenFrom root pattern))).text := rfl

/-- A text that is bare without a root is read as the text itself. -/
theorem ofText_bare {s : String} (h : isAbsoluteText (bare s) = false) :
    ofText (bare s) = ⟨0, (ofText s).segments⟩ := by
  rw [← segments_bare, ← Path.slashes_ofText_eq_zero h]

/-- A text that gets no root when `./` is dropped at its start. -/
def Unrooted (s : String) : Prop := isAbsoluteText (String.ofList (dropHere s.toList)) = false

/-- No slash comes to the start of a text when slashes at its end are dropped. -/
theorem Unrooted.bare {s : String} (h : Unrooted s) : isAbsoluteText (bare s) = false := by
  obtain ⟨n, hn⟩ := exists_append_dropSlashes (dropHere s.toList)
  rw [Unrooted, isAbsoluteText, String.toList_ofList, decide_eq_false_iff_not] at h
  rw [isAbsoluteText, Issue.bare, String.toList_ofList, decide_eq_false_iff_not]
  intro hhead
  obtain ⟨t, ht⟩ := List.head?_eq_some_iff.1 hhead
  rw [hn, ht] at h
  exact h rfl

/-- Nothing is dropped at the start of a text of which no part is a dot. -/
theorem unrooted_of_parts {s : String} (h : "." ∉ Path.parts s) (hs : isAbsoluteText s = false) :
    Unrooted s := by
  have hdrop : dropHere s.toList = s.toList := by
    unfold dropHere
    split
    · next rest heq =>
      have htext : s = "." ++ "/" ++ String.ofList rest := by
        rw [← String.toList_inj, heq]
        simp
      rw [htext, Path.parts_append] at h
      exact absurd List.mem_cons_self h
    · rfl
  rwa [Unrooted, hdrop, String.ofList_toList]

variable {root : Path} {pattern : String}

theorem unrooted_key (hroot : root.Rooted) (s : String) : Unrooted (root.key s) := by
  have hwritten : Path.Written (Path.relative root.segments (root.absolute s).segments) :=
    Path.written_relative (Path.rooted_absolute hroot s).written
  have habs := Path.not_isAbsoluteText_key root s
  rw [Path.key_eq hroot] at habs ⊢
  by_cases hnil : Path.relative root.segments (root.absolute s).segments = []
  · rw [hnil]
    rfl
  · rw [Path.text_of_ne_nil hnil] at habs ⊢
    refine unrooted_of_parts (fun hdot => ?_) habs
    rw [Path.parts_joined hwritten hnil] at hdot
    exact absurd (hwritten "." hdot).1 (by decide)

/-- A request that has no root as it is seen from the root is compared by what is read of it. -/
theorem requested_of_unrooted (h : Unrooted (Tree.seenFrom root pattern)) :
    requested (some root) pattern = Path.text ⟨0, (ofText (Tree.seenFrom root pattern)).segments⟩ := by
  rw [requested_eq, ofText_bare h.bare]

/-- A regular text, with or without a slash at its end, is read as the text. -/
theorem text_of_regular_slash {s : String} (hs : Text.Regular s.toList)
    (h : pattern = s ∨ pattern = s ++ "/") :
    Unrooted pattern ∧ Path.text ⟨0, (ofText pattern).segments⟩ = s := by
  have hdot : "." ∉ Path.parts s := by
    intro hmem
    obtain ⟨part, hpart, heq⟩ := List.mem_map.1 hmem
    refine (hs part hpart).2 ?_
    rw [← String.toList_ofList (l := part), heq]
    rfl
  have hslash : s ++ "/" = s ++ "/" ++ "" := String.append_empty.symm
  have hrelative : isAbsoluteText pattern = false := by
    rw [isAbsoluteText, decide_eq_false_iff_not]
    rcases h with rfl | rfl
    · exact hs.head?_ne
    · rw [String.toList_append, List.head?_append_of_ne_nil _ hs.ne_nil]
      exact hs.head?_ne
  have hparts : "." ∉ Path.parts pattern := by
    rcases h with rfl | rfl
    · exact hdot
    · rw [hslash, Path.parts_append, List.mem_append, not_or]
      exact ⟨hdot, by decide⟩
  have hsegments : (ofText pattern).segments = (ofText s).segments := by
    rcases h with rfl | rfl
    · rfl
    · rw [hslash, Path.segments_ofText_append]
      exact List.append_nil _
  refine ⟨unrooted_of_parts hparts hrelative, ?_⟩
  rw [hsegments, Path.ofText_regular hs, ← Path.ofText_regular hs, Path.text_of_regular hs]

/-- A request that goes straight to where it leads: it has a root, or no segment of it leads up and no
slash follows a `./` at its start. -/
def Straight (pattern : String) : Prop :=
  isAbsoluteText pattern = true ∨ ".." ∉ (ofText pattern).segments ∧ Unrooted pattern

theorem Straight.unrooted (h : Straight pattern) (hroot : root.Rooted) :
    Unrooted (Tree.seenFrom root pattern) := by
  rw [Tree.seenFrom]
  split
  · exact unrooted_key hroot pattern
  · next habs => exact (h.resolve_left habs).2

/-- **A request is compared by its key** when it goes straight to where it leads. -/
theorem requested_eq_key (hroot : root.Rooted) (h : Straight pattern) :
    requested (some root) pattern = root.key pattern := by
  rw [requested_of_unrooted (h.unrooted hroot)]
  by_cases habs : isAbsoluteText pattern = true
  · rw [Tree.seenFrom, if_pos habs, Path.ofText_key hroot, ← Path.key_eq hroot]
  · have hrelative : isAbsoluteText pattern = false := Bool.not_eq_true _ ▸ habs
    rw [Tree.seenFrom, if_neg habs, Path.key_of_straight hroot hrelative (h.resolve_left habs).1,
      ← Path.slashes_ofText_eq_zero hrelative]

/-- A path lies at a request or goes on from it after a slash. -/
theorem isUnder_iff {path request : List Glyph} :
    isUnder path request = true ↔ path = request ∨ ∃ rest, path = request ++ .char '/' :: rest := by
  rw [isUnder, Bool.or_eq_true, decide_eq_true_iff, List.isPrefixOf_iff_prefix]
  refine or_congr_right (exists_congr fun rest => ?_)
  rw [List.append_assoc, List.singleton_append, eq_comm]

/-- What goes on after a request and a slash lies below the request. -/
theorem isUnder_of_toList {path request : String} {rest : List Char}
    (h : path.toList = request.toList ++ '/' :: rest) :
    isUnder (Glyph.ofString path) (Glyph.ofString request) = true := by
  refine isUnder_iff.2 (.inr ⟨Glyph.ofChars rest, ?_⟩)
  rw [Glyph.ofString, h]
  exact List.map_append

/-- A path without halves lies at a request or goes on from it after a slash. -/
theorem isUnder_ofString_iff {path request : String} :
    isUnder (Glyph.ofString path) (Glyph.ofString request) = true ↔
      path = request ∨ ∃ rest, path = request ++ "/" ++ rest := by
  rw [isUnder_iff, Glyph.ofString_inj]
  refine or_congr_right ⟨fun ⟨rest, hrest⟩ => ⟨Glyph.text rest, ?_⟩, fun ⟨rest, hrest⟩ =>
    ⟨Glyph.ofString rest, ?_⟩⟩
  · have hmasked := congrArg (List.map Glyph.masked) hrest
    rw [List.map_append, List.map_cons, Glyph.map_masked_ofString, Glyph.map_masked_ofString] at hmasked
    rw [← String.toList_inj, hmasked, Glyph.text]
    simp
  · rw [hrest, Glyph.ofString]
    simp [Glyph.ofString, Glyph.ofChars]

variable {issues : List Issue} {patterns : List String} {i : Issue}

/-- Where a glob is requested all issues are kept. -/
theorem filter_of_hasGlob (hp : pattern ∈ patterns) (hglob : hasGlob pattern = true) (root : Option Path) :
    filter issues patterns root = issues := by
  have hany : patterns.any hasGlob = true := List.any_eq_true.2 ⟨pattern, hp, hglob⟩
  rw [filter, hany, Bool.or_true, if_pos rfl]

/-- A request keeps the issues at its path and below it, and all if it is the working root. -/
theorem mem_filter_of_request (hi : i ∈ issues) (hp : pattern ∈ patterns) {root : Option Path}
    (h : requested root pattern = "." ∨
      isUnder i.spelling (Glyph.ofString (requested root pattern)) = true) :
    i ∈ filter issues patterns root := by
  have hrequest : requested root pattern ∈ patterns.map (requested root) := List.mem_map_of_mem hp
  rw [filter]
  split
  · exact hi
  · dsimp only
    split
    · exact hi
    · next hroot =>
      rcases h with h | h
      · exact absurd (List.contains_iff_mem.2 (h ▸ hrequest)) hroot
      · exact List.mem_filter.2 ⟨hi, List.any_eq_true.2 ⟨_, hrequest, h⟩⟩

/-- An issue is kept by a request alone that is no glob when it lies at the request or below it, or
when the request is the working root. -/
theorem request_of_mem_filter {root : Option Path} (h : i ∈ filter [i] [pattern] root)
    (hglob : hasGlob pattern = false) :
    requested root pattern = "." ∨
      isUnder i.spelling (Glyph.ofString (requested root pattern)) = true := by
  rw [filter, List.any_cons, hglob, List.any_nil, List.isEmpty_cons, Bool.or_self, Bool.or_self,
    if_neg Bool.false_ne_true] at h
  dsimp only at h
  split at h
  · next hdot => exact .inl (by simpa [eq_comm] using hdot)
  · exact .inr (by simpa using (List.mem_filter.1 h).2)

/-- A request without a root is compared by what is read of it, from whatever root it is seen. -/
theorem requested_of_relative (root : Option Path) (h : isAbsoluteText pattern = false) :
    requested root pattern = (ofText (bare pattern)).text := by
  cases root with
  | none => rfl
  | some root => rw [requested_eq, Tree.seenFrom, if_neg (Bool.eq_false_iff.1 h)]

/-- The path that is read of what a request without a root is compared with. -/
theorem ofText_requested (root : Path) (h : isAbsoluteText pattern = false) :
    requested (some root) pattern = (ofText (bare pattern)).text ∧
      ofText (requested (some root) pattern) = ofText (bare pattern) := by
  have hrequested := requested_of_relative (some root) h
  refine ⟨hrequested, ?_⟩
  rw [hrequested]
  exact Path.ofText_text (Path.written_ofText _) (Path.slashes_ofText_le _)

/-- No key goes on from the spelling of its request but with nothing, for it has no more segments. -/
theorem requested_of_key_eq_append (hroot : root.Rooted) (h : isAbsoluteText pattern = false)
    {rest : String} (hrest : root.key pattern = requested (some root) pattern ++ "/" ++ rest) :
    requested (some root) pattern = root.key pattern := by
  obtain ⟨hrequested, hread⟩ := ofText_requested root h
  have hsegments := congrArg (fun s => (ofText s).segments) hrest
  simp only [Path.segments_ofText_append, hread, segments_bare, Path.ofText_key hroot] at hsegments
  have hlength := Path.length_relative_collapse_le hroot.straight (ofText pattern).segments
  have habsolute : (root.absolute pattern).segments =
      Path.collapse (root.segments ++ (ofText pattern).segments) := by
    rw [Path.absolute, Path.join, if_neg (by simp [Path.isAbsolute, Path.slashes_ofText_eq_zero h])]
  rw [← habsolute, hsegments, List.length_append] at hlength
  have hnil : (ofText rest).segments = [] := List.length_eq_zero_iff.1 (by omega)
  rw [hnil, List.append_nil] at hsegments
  -- a key has no root, and neither has what it goes on from
  have hbare : isAbsoluteText (bare pattern) = false := by
    refine Bool.eq_false_iff.2 fun habs => ?_
    rw [← Path.slashes_ofText_ne_zero_iff, ← hread, Path.slashes_ofText_ne_zero_iff, isAbsoluteText,
      decide_eq_true_iff] at habs
    have hkey := Path.not_isAbsoluteText_key root pattern
    rw [hrest, isAbsoluteText, decide_eq_false_iff_not, String.toList_append (s := _ ++ "/"),
      String.toList_append] at hkey
    obtain ⟨t, ht⟩ := List.head?_eq_some_iff.1 habs
    exact hkey (by rw [ht]; rfl)
  rw [hrequested, ofText_bare hbare, Path.key_eq hroot, hsegments]

/-- **A request keeps the issues at its own key** exactly when it is compared by this key. -/
theorem mem_filter_self_iff (hroot : root.Rooted) (hglob : hasGlob (Tree.seenFrom root pattern) = false)
    (hi : i.spelling = Glyph.ofString (root.key pattern)) :
    i ∈ filter [i] [pattern] (some root) ↔ requested (some root) pattern = root.key pattern := by
  refine ⟨fun h => ?_, fun h => mem_filter_of_request (List.mem_singleton_self i)
    (List.mem_singleton_self pattern) (.inr (isUnder_iff.2 (.inl (by rw [hi, h]))))⟩
  by_cases habs : isAbsoluteText pattern = true
  · exact requested_eq_key hroot (.inl habs)
  have hrelative : isAbsoluteText pattern = false := Bool.not_eq_true _ ▸ habs
  rw [Tree.seenFrom, if_neg habs] at hglob
  rcases request_of_mem_filter h hglob with hdot | hunder
  · -- the working root is its own key
    have hnil : (ofText pattern).segments = [] := by
      rw [← segments_bare, ← (ofText_requested root hrelative).2, hdot]
      decide
    rw [Path.key_of_straight hroot hrelative (hnil ▸ List.not_mem_nil), hdot, Path.text, hnil,
      Path.slashes_ofText_eq_zero hrelative]
    rfl
  · rw [hi] at hunder
    rcases isUnder_ofString_iff.1 hunder with heq | ⟨rest, hrest⟩
    · exact heq.symm
    · exact requested_of_key_eq_append hroot hrelative hrest

end Issue
end LintMerge
