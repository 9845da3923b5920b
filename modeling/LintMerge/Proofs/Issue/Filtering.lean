/-
# What requests keep

Issues are filtered by a list of requests. Each request says by itself which issues it keeps
(`Issue.keeps`): a glob and the working root keep all of them, any other request those at its path
and below it. A list keeps what one of its requests keeps (`Issue.filter_eq`), although the filter
is written the other way around: it looks for a request that keeps everything first, and compares
texts only when there is none.

Texts are compared, but segments are meant. A request that is spelled out of plain segments keeps
the issues of which the path starts with these segments (`Issue.keeps_spelledOut_iff`), and so `src`
keeps nothing of `srcx`.
-/

import LintMerge.Proofs.Issue.Requests
import LintMerge.Proofs.Path.Canonical

namespace LintMerge

theorem hasGlob_append (s t : String) : hasGlob (s ++ t) = (hasGlob s || hasGlob t) := by
  rw [hasGlob, String.toList_append, List.any_append]
  rfl

namespace Issue

open LintMerge.Path (ofText isAbsoluteText joined parts IsStep)

variable {root : Option Path} {patterns : List String} {issues : List Issue} {i : Issue}

/-- Whether a request keeps an issue: all of them if it is a glob or the working root, else those
at its path and below it. -/
def keeps (root : Option Path) (pattern : String) (i : Issue) : Bool :=
  hasGlob pattern || (requested root pattern = "." || isUnder i.spelling (Glyph.ofString (requested root pattern)))

/-- **A list of requests keeps what one of them keeps.** -/
theorem filter_eq (hne : patterns ≠ []) :
    filter issues patterns root = issues.filter fun i => patterns.any (keeps root · i) := by
  have hall {p : String} (hp : p ∈ patterns) (hkeeps : ∀ i, keeps root p i = true) :
      issues = issues.filter fun i => patterns.any (keeps root · i) := by
    rw [eq_comm, List.filter_eq_self]
    exact fun i _ => List.any_eq_true.2 ⟨p, hp, hkeeps i⟩
  have hempty : patterns.isEmpty = false := by simpa using hne
  rw [filter, hempty, Bool.false_or]
  split
  · next hglob =>
    obtain ⟨p, hp, hglob⟩ := List.any_eq_true.1 hglob
    exact hall hp fun i => by rw [keeps, hglob, Bool.true_or]
  · next hglob =>
    dsimp only
    split
    · next hroot =>
      obtain ⟨p, hp, hroot⟩ := List.mem_map.1 (List.contains_iff_mem.1 hroot)
      exact hall hp fun i => by rw [keeps, hroot, decide_eq_true rfl, Bool.true_or, Bool.or_true]
    · next hroot =>
      -- no request keeps everything, so each one keeps what is under it
      refine List.filter_congr fun i _ => ?_
      rw [List.any_map, Bool.eq_iff_iff, List.any_eq_true, List.any_eq_true]
      refine exists_congr fun p => and_congr_right fun hp => ?_
      have hplain : hasGlob p = false :=
        Bool.eq_false_iff.2 fun h => hglob (List.any_eq_true.2 ⟨p, hp, h⟩)
      have helsewhere : requested root p ≠ "." := fun h =>
        hroot (List.contains_iff_mem.2 (List.mem_map.2 ⟨p, hp, h⟩))
      rw [keeps, hplain, decide_eq_false helsewhere, Bool.false_or, Bool.false_or, Function.comp_apply]

/-- What a request keeps by itself. -/
theorem mem_filter_singleton {p : String} :
    i ∈ filter issues [p] root ↔ i ∈ issues ∧ keeps root p i = true := by
  rw [filter_eq (List.cons_ne_nil _ _), List.mem_filter, List.any_cons, List.any_nil, Bool.or_false]

/-- A segment of a request as it is usually spelled. -/
structure IsPlain (segment : String) : Prop where
  step : IsStep segment
  not_slash : '/' ∉ segment.toList
  not_glob : hasGlob segment = false

/-- A request that is spelled out: `./` some times, segments with a slash between each two, and
some slashes. -/
def spelledOut (here : Nat) (segments : List String) (slashes : Nat) : String :=
  String.join (List.replicate here "./") ++ joined segments ++ String.ofList (List.replicate slashes '/')

variable {segments : List String} (here slashes : Nat)

theorem spelledOut_succ :
    spelledOut (here + 1) segments slashes = "." ++ "/" ++ spelledOut here segments slashes := by
  rw [spelledOut, List.replicate_succ, String.join_cons, ← String.toList_inj]
  simp [spelledOut]

theorem written_of_plain (hplain : ∀ s ∈ segments, IsPlain s) : Path.Written segments := fun s hs =>
  ⟨Path.isSegment_iff.2 ⟨(hplain s hs).step.1, (hplain s hs).step.2.1⟩, (hplain s hs).not_slash⟩

theorem hasGlob_spelledOut (hplain : ∀ s ∈ segments, IsPlain s) :
    hasGlob (spelledOut here segments slashes) = false := by
  have hhere : hasGlob (String.join (List.replicate here "./")) = false := by
    induction here with
    | zero => rfl
    | succ here ih =>
      rw [List.replicate_succ, String.join_cons, hasGlob_append, ih]
      rfl
  have hjoined : hasGlob (joined segments) = false := by
    rw [hasGlob_eq_false_iff]
    intro c hc
    rcases Path.mem_joined hc with rfl | ⟨s, hs, hc⟩
    · decide
    · exact hasGlob_eq_false_iff.1 (hplain s hs).not_glob c hc
  have hslashes : hasGlob (String.ofList (List.replicate slashes '/')) = false := by
    rw [hasGlob_eq_false_iff, String.toList_ofList]
    intro c hc
    rw [List.eq_of_mem_replicate hc]
    decide
  rw [spelledOut, hasGlob_append, hasGlob_append, hhere, hjoined, hslashes]
  rfl

/-- A request that is spelled out has no root, also when its `./` are dropped. -/
theorem relative_spelledOut (hne : segments ≠ []) (hplain : ∀ s ∈ segments, IsPlain s) :
    isAbsoluteText (spelledOut here segments slashes) = false ∧
      Unrooted (spelledOut here segments slashes) := by
  have hwritten := written_of_plain hplain
  induction here with
  | zero =>
    have hzero : spelledOut 0 segments slashes =
        joined segments ++ String.ofList (List.replicate slashes '/') := by
      rw [spelledOut, List.replicate_zero, String.join_nil, String.empty_append]
    have hrelative : isAbsoluteText (spelledOut 0 segments slashes) = false := by
      have hregular := Path.regular_joined hwritten hne
      rw [hzero, isAbsoluteText, decide_eq_false_iff_not, String.toList_append,
        List.head?_append_of_ne_nil _ hregular.ne_nil]
      exact hregular.head?_ne
    refine ⟨hrelative, unrooted_of_parts (fun hdot => ?_) hrelative⟩
    rw [hzero, Path.parts_append_slashes, Path.parts_joined hwritten hne, List.mem_append] at hdot
    rcases hdot with hdot | hdot
    · exact (hplain _ hdot).step.2.1 rfl
    · exact absurd (List.eq_of_mem_replicate hdot) (by decide)
  | succ here ih =>
    rw [spelledOut_succ]
    rw [Unrooted, isAbsoluteText, String.toList_append, String.toList_append]
    -- the first `./` is dropped, and then the others
    exact ⟨decide_eq_false fun h => absurd (Option.some.inj h : '.' = '/') (by decide), ih.2⟩

theorem segments_spelledOut (hplain : ∀ s ∈ segments, IsPlain s) :
    (ofText (spelledOut here segments slashes)).segments = segments := by
  induction here with
  | zero =>
    rw [spelledOut, Path.segments_ofText_slashes, List.replicate_zero, String.join_nil,
      String.empty_append]
    exact Path.filter_parts_joined (written_of_plain hplain)
  | succ here ih =>
    rw [spelledOut_succ, Path.segments_ofText_append, ih]
    rfl

/-- A request that is spelled out is compared by its segments. -/
theorem requested_spelledOut (hne : segments ≠ []) (hplain : ∀ s ∈ segments, IsPlain s) :
    requested root (spelledOut here segments slashes) = joined segments := by
  obtain ⟨hrelative, hunrooted⟩ := relative_spelledOut here slashes hne hplain
  rw [requested_of_relative root hrelative, ofText_bare hunrooted.bare,
    segments_spelledOut here slashes hplain, Path.text_of_ne_nil hne]

theorem ofString_joined (segments : List String) :
    Glyph.ofString (joined segments) = Text.joinWith [.char '/'] (segments.map Glyph.ofString) := by
  induction segments with
  | nil => rfl
  | cons s more ih =>
    cases more with
    | nil => rw [joined, String.intercalate_singleton]; rfl
    | cons t more =>
      rw [List.map_cons, List.map_cons, Text.joinWith_cons_cons, ← List.map_cons, ← ih, Path.joined_cons_cons]
      simp [Glyph.ofString, Glyph.ofChars]

/-- What stands between the slashes of the path of an issue, as it was read. -/
def pathParts (i : Issue) : List (List Glyph) := Text.splitOn (.char '/') i.spelling

/-- **What lies under joined segments** is what starts with these segments. -/
theorem isUnder_joined_iff (hwritten : Path.Written segments) (hne : segments ≠ []) :
    isUnder i.spelling (Glyph.ofString (joined segments)) = true ↔
      segments.map Glyph.ofString <+: i.pathParts := by
  have hparts : ∀ part ∈ segments.map Glyph.ofString, Glyph.char '/' ∉ part := by
    intro part hpart hslash
    obtain ⟨s, hs, rfl⟩ := List.mem_map.1 hpart
    have hmasked := List.mem_map_of_mem (f := Glyph.masked) hslash
    rw [Glyph.map_masked_ofString] at hmasked
    exact (hwritten s hs).2 hmasked
  rw [isUnder_iff, ofString_joined]
  exact (Text.isPrefix_splitOn_iff (by simpa using hne) hparts).symm

/-- **A request of plain segments keeps whole segments.** -/
theorem keeps_spelledOut_iff (hne : segments ≠ []) (hplain : ∀ s ∈ segments, IsPlain s) :
    keeps root (spelledOut here segments slashes) i = true ↔ segments.map Glyph.ofString <+: i.pathParts := by
  have hwritten := written_of_plain hplain
  have helsewhere : joined segments ≠ "." := by
    intro hdot
    have hsegments := Path.parts_joined hwritten hne
    rw [hdot] at hsegments
    have hmem : "." ∈ segments := hsegments ▸ List.mem_singleton_self _
    exact (hplain _ hmem).step.2.1 rfl
  rw [keeps, hasGlob_spelledOut here slashes hplain, requested_spelledOut here slashes hne hplain,
    decide_eq_false helsewhere, Bool.false_or, Bool.false_or, isUnder_joined_iff hwritten hne]

/-- **Filtering is done request by request, and by whole segments.** From whatever root, a list of
requests keeps, in their order, the issues that one of the requests keeps when it stands alone. So
filtering twice changes nothing, parts of a list can be filtered by themselves, and more requests
keep more. And a request that is spelled out of plain segments keeps an issue exactly when the path
of the issue starts with these segments. -/
theorem filter_requestwise (root : Option Path) :
    (∀ patterns, patterns ≠ [] →
      (∀ issues, filter issues patterns root =
        issues.filter fun i => ∃ p ∈ patterns, i ∈ filter issues [p] root) ∧
      (∀ issues, filter (filter issues patterns root) patterns root = filter issues patterns root) ∧
      (∀ issues more, filter (issues ++ more) patterns root =
        filter issues patterns root ++ filter more patterns root) ∧
      ∀ issues wider, patterns ⊆ wider → (filter issues patterns root).Sublist (filter issues wider root)) ∧
    ∀ segments, segments ≠ [] → (∀ s ∈ segments, IsPlain s) → ∀ here slashes issues, ∀ i ∈ issues,
      (i ∈ filter issues [spelledOut here segments slashes] root ↔
        segments.map Glyph.ofString <+: i.pathParts) := by
  refine ⟨fun patterns hne => ⟨fun issues => ?union, fun issues => ?twice, fun issues more => ?append,
    fun issues wider hsub => ?wider⟩, fun segments hne hplain here slashes issues i hi => ?segments⟩
  case union =>
    rw [filter_eq hne]
    refine List.filter_congr fun i hi => ?_
    rw [Bool.eq_iff_iff, List.any_eq_true, decide_eq_true_iff]
    exact exists_congr fun p => and_congr_right fun _ => by rw [mem_filter_singleton, and_iff_right hi]
  case twice =>
    rw [filter_eq hne, filter_eq hne, List.filter_filter]
    simp only [Bool.and_self]
  case append => rw [filter_eq hne, filter_eq hne, filter_eq hne, List.filter_append]
  case wider =>
    have hwider : wider ≠ [] := fun h => hne (List.subset_nil.1 (h ▸ hsub))
    rw [filter_eq hne, filter_eq hwider]
    refine List.monotone_filter_right issues fun i hi => ?_
    obtain ⟨p, hp, hkeeps⟩ := List.any_eq_true.1 hi
    exact List.any_eq_true.2 ⟨p, hsub hp, hkeeps⟩
  case segments =>
    rw [mem_filter_singleton, and_iff_right hi, keeps_spelledOut_iff here slashes hne hplain]

namespace Sample

/-- A finding of a linter that looks at a whole project. -/
def found (path : String) (isPath : IsPath path) : Issue where
  path
  span := ⟨2, 6, 2, 6, by decide, by decide, by decide, by decide⟩
  severity := .error
  ruleId := "tsc/TS2304"
  message := "Cannot find name."
  source := .tsc
  fix := none
  about := none
  isPath
  ruleId_ne := by decide

/-- A finding below a folder, and one below a folder of which the name goes on. -/
def beside : List Issue :=
  [found "src/nested/b.ts" (by unfold IsPath; decide), found "src/nestedx/c.ts" (by unfold IsPath; decide)]

end Sample

/-- The hypotheses of `filter_requestwise` hold together. A folder keeps what is below it, and
nothing below a folder of which the name only starts with its name. -/
theorem filter_requestwise_beside :
    spelledOut 2 ["src", "nested"] 1 = "././src/nested/" ∧ (∀ s ∈ ["src", "nested"], IsPlain s) ∧
      filter Sample.beside ["lib", "././src/nested/"] none = Sample.beside.filter (fun i =>
        ∃ p ∈ ["lib", "././src/nested/"], i ∈ filter Sample.beside [p] none) ∧
      (∀ i ∈ Sample.beside, i ∈ filter Sample.beside ["././src/nested/"] none ↔
        ["src", "nested"].map Glyph.ofString <+: i.pathParts) ∧
      (filter Sample.beside ["././src/nested/"] none).map (·.path) = ["src/nested/b.ts"] := by
  have hspelled : spelledOut 2 ["src", "nested"] 1 = "././src/nested/" := by decide
  have hplain : ∀ s ∈ ["src", "nested"], IsPlain s := by
    simp only [List.forall_mem_cons]
    exact ⟨⟨by unfold IsStep; decide, by decide, by decide⟩,
      ⟨by unfold IsStep; decide, by decide, by decide⟩, List.forall_mem_nil _⟩
  obtain ⟨hrequests, hsegments⟩ := filter_requestwise none
  refine ⟨hspelled, hplain, (hrequests _ (by decide)).1 _, fun i hi => ?_, by decide +kernel⟩
  rw [← hspelled]
  exact hsegments _ (by decide) hplain 2 1 _ i hi

end Issue
end LintMerge
