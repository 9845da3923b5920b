/-
# Globs of source files

The glob of source files stands for a line for each of their extensions, `**` and a name that ends
in it, below the parts of a path. A name in a pattern is matched by folders as well, and then by all
that lies in them. So a line matches a path of which some part below the others is named like a
source file, be it the last or not (`GoesThrough`); a line feed may follow the last. Where the parts
that come first stand for themselves this is all that the lines match (`includes_sources_iff`), and
in any case nothing else is matched (`exists_goesThrough`).
-/

import LintMerge.Proofs.Glob.Names
import LintMerge.Proofs.Tree.Agreement

namespace LintMerge
namespace Glob

open LintMerge.Path (Written onward joined parts)

/-- A name that ends in an extension of source files. -/
def IsSource (name : String) : Prop := ∃ e ∈ sourceExtensions, '.' :: e.toList <:+ name.toList

instance : DecidablePred IsSource := fun name =>
  inferInstanceAs (Decidable (∃ e ∈ sourceExtensions, '.' :: e.toList <:+ name.toList))

/-- Some part is named like a source file, and no part before it has a line feed. A line feed may
follow the name of the last part. -/
def GoesThrough (ps : List String) : Prop :=
  ∃ before part after, ps = before ++ part :: after ∧ (∀ s ∈ before, '\n' ∉ s.toList) ∧
    (IsSource part ∨ after = [] ∧ ∃ name, IsSource name ∧ part = name ++ "\n")

/-- The pieces of a name with an extension. -/
def extended (e : String) : List Piece := .many :: ('.' :: e.toList).map .char

/-- The line of the source files with an extension, below some parts. -/
def sourceLine (start : List String) (e : String) : String := onward start ("**/*." ++ e)

/-- A path of which `**` and a name with an extension match a start, up to where a name may end. -/
def Hits (e : String) (path : List Char) : Prop :=
  ∃ c r, Eats (steps [.deep, .name (extended e)]) c ∧ path = c ++ r ∧ Stops r

variable {e : String} {path : List Char}

/-! ### Hits -/

theorem eats_extended {b : List Char} : Eats ((extended e).map .piece) b ↔
    ∃ stem, '/' ∉ stem ∧ b = stem ++ '.' :: e.toList := by
  have hext : (extended e).map Step.piece = .piece .many :: (literally ('.' :: e.toList) ++ []) := by
    rw [extended, List.map_cons, map_piece_char, List.append_nil]
  rw [hext]
  show (∃ x y, '/' ∉ x ∧ Eats (literally ('.' :: e.toList) ++ []) y ∧ b = x ++ y) ↔ _
  simp only [eats_literally]
  constructor
  · rintro ⟨stem, _, hstem, ⟨_, rfl, rfl⟩, rfl⟩
    exact ⟨stem, hstem, by rw [List.append_nil]⟩
  · rintro ⟨stem, hstem, rfl⟩
    exact ⟨stem, _, hstem, ⟨[], rfl, rfl⟩, by rw [List.append_nil]⟩

/-- **Where a path is hit**: at its start or behind a slash that no line feed precedes. -/
theorem hits_iff : Hits e path ↔ ∃ lead stem r, path = lead ++ (stem ++ '.' :: e.toList ++ r) ∧
    (lead = [] ∨ ∃ u, u ≠ [] ∧ '\n' ∉ u ∧ lead = u ++ ['/']) ∧ '/' ∉ stem ∧ Stops r := by
  have hsteps : steps [.deep, .name (extended e)] = .deepBefore :: (extended e).map .piece := List.append_nil _
  rw [Hits, hsteps]
  constructor
  · rintro ⟨_, r, ⟨lead, _, hlead, hb, rfl⟩, rfl, hr⟩
    obtain ⟨stem, hstem, rfl⟩ := eats_extended.1 hb
    exact ⟨lead, stem, r, List.append_assoc .., hlead, hstem, hr⟩
  · rintro ⟨lead, stem, r, rfl, hlead, hstem, hr⟩
    exact ⟨_, r, ⟨lead, _, hlead, eats_extended.2 ⟨stem, hstem, rfl⟩, rfl⟩, (List.append_assoc ..).symm, hr⟩

/-- The parts of a text that starts with a name. -/
theorem parts_of_name {b r : List Char} (hb : '/' ∉ b) (hr : Stops r) :
    ∃ part after, parts (String.ofList (b ++ r)) = part :: after ∧
      (part = String.ofList b ∨ after = [] ∧ part = String.ofList b ++ "\n") := by
  have hname : parts (String.ofList b) = [String.ofList b] :=
    Path.parts_of_not_mem (by rwa [String.toList_ofList])
  rcases hr with hr | rfl | rfl
  · obtain ⟨r', rfl⟩ := List.head?_eq_some_iff.1 hr
    have hsplit : String.ofList (b ++ '/' :: r') = String.ofList b ++ "/" ++ String.ofList r' := by
      rw [← String.toList_inj]
      simp
    rw [hsplit, Path.parts_append, hname]
    exact ⟨_, _, rfl, .inl rfl⟩
  · rw [List.append_nil, hname]
    exact ⟨_, _, rfl, .inl rfl⟩
  · have hfeed : '/' ∉ (String.ofList b ++ "\n").toList := by
      rw [String.toList_append, String.toList_ofList, List.mem_append, not_or]
      exact ⟨hb, by decide⟩
    rw [String.ofList_append]
    exact ⟨_, _, Path.parts_of_not_mem hfeed, .inr ⟨rfl, rfl⟩⟩

/-- Joined parts start with the first. -/
theorem exists_joined_cons (part : String) (after : List String) :
    ∃ r, (joined (part :: after)).toList = part.toList ++ r ∧ Stops r := by
  cases after with
  | nil => exact ⟨[], by rw [joined, String.intercalate_singleton, List.append_nil], .inr (.inl rfl)⟩
  | cons t after =>
    refine ⟨'/' :: (joined (t :: after)).toList, ?_, .inl rfl⟩
    rw [Path.joined_cons_cons]
    simp

/-- What stands in front of a text that goes on from some parts. -/
theorem exists_onward {before : List String} {s : String}
    (hregular : Text.Regular (onward before s).toList) (hbefore : ∀ t ∈ before, '\n' ∉ t.toList) :
    ∃ lead, (onward before s).toList = lead ++ s.toList ∧
      (lead = [] ∨ ∃ u, u ≠ [] ∧ '\n' ∉ u ∧ lead = u ++ ['/']) := by
  by_cases hnil : before = []
  · exact ⟨[], by rw [hnil, Path.onward_nil, List.nil_append], .inl rfl⟩
  rw [Path.toList_onward hnil] at hregular ⊢
  refine ⟨(joined before).toList ++ ['/'], by simp, .inr ⟨_, hregular.left.ne_nil, fun hfeed => ?_, rfl⟩⟩
  rcases Path.mem_joined hfeed with h | ⟨t, ht, hfeed⟩
  · exact absurd h (by decide)
  · exact hbefore t ht hfeed

/-- **A path that goes through a source file** is hit by its extension. -/
theorem exists_hits_of_goesThrough {path : String} (hpath : Text.Regular path.toList)
    (h : GoesThrough (parts path)) : ∃ e ∈ sourceExtensions, Hits e path.toList := by
  simp only [hits_iff]
  obtain ⟨before, part, after, hparts, hbefore, hpart⟩ := h
  have honward : path = onward before (joined (part :: after)) := by
    rw [← Path.joined_append_eq_onward before (List.cons_ne_nil part after), ← hparts, Path.joined_parts]
  have hslash : '/' ∉ part.toList := by
    obtain ⟨b, hb, rfl⟩ := List.mem_map.1 (hparts ▸ List.mem_append_right before List.mem_cons_self)
    rw [String.toList_ofList]
    exact Text.not_mem_of_mem_splitOn hb
  obtain ⟨lead, hlead, hends⟩ := exists_onward (honward ▸ hpath) hbefore
  rw [honward, hlead]
  rcases hpart with ⟨e, he, stem, hstem⟩ | ⟨rfl, name, ⟨e, he, stem, hstem⟩, rfl⟩
  · obtain ⟨r, hr, hstops⟩ := exists_joined_cons part after
    rw [← hstem, List.mem_append, not_or] at hslash
    exact ⟨e, he, lead, stem, r, by rw [hr, hstem], hends, hslash.1, hstops⟩
  · rw [String.toList_append, ← hstem, List.mem_append, List.mem_append, not_or, not_or] at hslash
    refine ⟨e, he, lead, stem, ['\n'], ?_, hends, hslash.1.1, .inr (.inr rfl)⟩
    rw [joined, String.intercalate_singleton, String.toList_append, ← hstem]
    rfl

/-- A path that is hit goes through a source file. -/
theorem goesThrough_of_hits {path : String} (he : e ∈ sourceExtensions) (h : Hits e path.toList) :
    GoesThrough (parts path) := by
  have hplain : ∀ e ∈ sourceExtensions, '/' ∉ '.' :: e.toList := by decide
  obtain ⟨lead, stem, r, hpath, hlead, hstem, hr⟩ := hits_iff.1 h
  have hslash : '/' ∉ stem ++ '.' :: e.toList := by
    rw [List.mem_append, not_or]
    exact ⟨hstem, hplain e he⟩
  have hsource : IsSource (String.ofList (stem ++ '.' :: e.toList)) :=
    ⟨e, he, stem, by rw [String.toList_ofList]⟩
  obtain ⟨part, after, hparts, hpart⟩ := parts_of_name hslash hr
  have hpart : IsSource part ∨ after = [] ∧ ∃ name, IsSource name ∧ part = name ++ "\n" := by
    rcases hpart with rfl | ⟨hafter, hpart⟩
    · exact .inl hsource
    · exact .inr ⟨hafter, _, hsource, hpart⟩
  rcases hlead with rfl | ⟨u, -, hfeed, rfl⟩
  · refine ⟨[], part, after, ?_, by simp, hpart⟩
    rw [← String.ofList_toList (s := path), hpath, List.nil_append, hparts, List.nil_append]
  · have hcut : path = String.ofList u ++ "/" ++ String.ofList (stem ++ '.' :: e.toList ++ r) := by
      rw [← String.toList_inj, hpath]
      simp
    refine ⟨parts (String.ofList u), part, after, by rw [hcut, Path.parts_append, hparts],
      fun s hs => ?_, hpart⟩
    obtain ⟨b, hb, rfl⟩ := List.mem_map.1 hs
    rw [String.toList_ofList] at hb ⊢
    exact fun h => hfeed (Text.subset_of_mem_splitOn hb h)

/-! ### Lines -/

variable {start : List String} {file y : String} {p : Pattern}

/-- **What the glob of source files stands for** below some parts: a line for each extension. -/
theorem mem_expandBraces_sources (hbrace : ∀ s ∈ start, '\x7b' ∉ s.toList) :
    y ∈ expandBraces (onward start sourceGlob) ↔ ∃ e ∈ sourceExtensions, y = sourceLine start e := by
  by_cases hnil : start = []
  · rw [hnil, Path.onward_nil, Tree.expandBraces_sourceGlob]
    simp only [sourceLine, Path.onward_nil, List.mem_map, eq_comm]
  · have hfree : '\x7b' ∉ (joined start ++ "/").toList := by
      rw [String.toList_append, List.mem_append, not_or]
      refine ⟨fun h => ?_, by decide⟩
      rcases Path.mem_joined h with h | ⟨s, hs, h⟩
      · exact absurd h (by decide)
      · exact hbrace s hs h
    rw [onward, if_neg hnil, mem_expandBraces_append hfree, Tree.expandBraces_sourceGlob]
    simp only [sourceLine, onward, if_neg hnil, List.mem_map, exists_exists_and_eq_and]

/-- The texts between the slashes of a line. -/
theorem splitOn_sourceLine (hstart : Written start) (he : e ∈ sourceExtensions) :
    Text.splitOn '/' (sourceLine start e).toList =
      start.map String.toList ++ [['*', '*'], '*' :: '.' :: e.toList] := by
  have hline : Text.splitOn '/' ("**/*." ++ e).toList = [['*', '*'], '*' :: '.' :: e.toList] := by
    have hplain : ∀ e ∈ sourceExtensions, '/' ∉ '*' :: '.' :: e.toList := by decide
    rw [String.toList_append, ← Text.splitOn_of_not_mem (hplain e he)]
    rfl
  rw [sourceLine, Path.splitOn_toList, Path.parts_onward hstart, List.map_append, ← Path.splitOn_toList, hline]

/-- They are read as they stand. -/
theorem collapseDeep_sourceLine (hstart : Written start) (hstar : ∀ s ∈ start, '*' ∉ s.toList)
    (he : e ∈ sourceExtensions) : collapseDeep (closeDeep (Text.splitOn '/' (sourceLine start e).toList)) =
      start.map String.toList ++ [['*', '*'], '*' :: '.' :: e.toList] := by
  have hdeep : ∀ s ∈ start.map String.toList, s ≠ ['*', '*'] :=
    List.forall_mem_map.2 fun s hs h => hstar s hs (h ▸ List.mem_cons_self)
  rw [splitOn_sourceLine hstart he, Pattern.closeDeep_of_getLast? (by simp), Pattern.collapseDeep_append hdeep]
  rfl

theorem mapM_segment?_extended (he : e ∈ sourceExtensions) :
    [['*', '*'], '*' :: '.' :: e.toList].mapM segment? = some [.deep, .name (extended e)] := by
  have : ∀ e ∈ sourceExtensions, [['*', '*'], '*' :: '.' :: e.toList].mapM segment? =
      some [.deep, .name (extended e)] := by decide
  exact this e he

/-- A line starts with no slash, and does not end with white space. -/
theorem ends_sourceLine (hstart : Written start) (he : e ∈ sourceExtensions) :
    (sourceLine start e).toList.head? ≠ some '/' ∧
      ∀ c ∈ (sourceLine start e).toList.getLast?, Text.isBlank c = false := by
  have hmem : "**/*." ++ e ∈ expandBraces sourceGlob := by
    rw [Tree.expandBraces_sourceGlob]
    exact List.mem_map_of_mem he
  have hne : ("**/*." ++ e).toList ≠ [] := by simp
  constructor
  · exact Path.head?_onward_ne hstart (Path.head?_joined_ne hstart) (by simp)
  · rw [sourceLine, Path.getLast?_onward start hne]
    exact Tree.not_blank_of_mem_expandBraces_sourceGlob hmem

/-- A line that does not start with a mark is anchored by a slash. -/
theorem anchor_sourceLine (hstart : Written start) (hmark : (joined start).toList.head? ≠ some '!')
    (he : e ∈ sourceExtensions) :
    Spec.anchor (sourceLine start e) = String.ofList ('/' :: (sourceLine start e).toList) :=
  Pattern.anchor_eq (ends_sourceLine hstart he).1
    (Path.head?_onward_ne hstart hmark (by simp))

/-- **How a line is read** when it includes. -/
theorem segments_sourceLine (hstart : Written start) (hstar : ∀ s ∈ start, '*' ∉ s.toList)
    (he : e ∈ sourceExtensions) (h : Pattern.ofLine (Spec.anchor (sourceLine start e)) = .ok (some p))
    (hp : p.negated = false) : ∃ first, (start.map String.toList).mapM segment? = some first ∧
      p.segments = first ++ [.deep, .name (extended e)] := by
  obtain ⟨hhead, hlast⟩ := ends_sourceLine hstart he
  have hsegments := Pattern.segments_of_anchor hhead hlast h hp
  rw [collapseDeep_sourceLine hstart hstar he] at hsegments
  obtain ⟨first, rest, hfirst, hrest, hsegments⟩ := mapM_segment?_append.1 hsegments
  rw [mapM_segment?_extended he] at hrest
  cases hrest
  exact ⟨first, hfirst, hsegments⟩

/-- What a line matches is told by what its steps eat. -/
theorem weight?_isSome_of_extended {first : List Segment} (hp : p.segments = first ++ [.deep, .name (extended e)]) :
    (p.weight? path).isSome = true ↔ ∃ c r, Eats (steps (first ++ [.deep, .name (extended e)])) c ∧
      path = c ++ r ∧ Stops r := by
  have hlast : p.segments.getLast? = some (.name (extended e)) := by
    rw [hp, List.getLast?_append_of_ne_nil _ (List.cons_ne_nil _ _)]
    rfl
  rw [Pattern.weight?_isSome_of_name hlast, hp]

/-- **What the glob of source files matches** below some parts goes through one. -/
theorem exists_goesThrough (hstart : Written start)
    (hchars : ∀ s ∈ start, '*' ∉ s.toList ∧ '\x7b' ∉ s.toList)
    (h : Includes (onward start sourceGlob) file.toList) :
    ∃ above below, parts file = above ++ below ∧ GoesThrough below := by
  obtain ⟨x, hx, p, hofLine, hnegated, hw⟩ := h
  obtain ⟨e, he, rfl⟩ := (mem_expandBraces_sources fun s hs => (hchars s hs).2).1 hx
  obtain ⟨first, hfirst, hp⟩ := segments_sourceLine hstart (fun s hs => (hchars s hs).1) he hofLine hnegated
  obtain ⟨c, r, hc, hpath, hr⟩ := (weight?_isSome_of_extended hp).1 hw
  by_cases hnil : first = []
  · subst hnil
    exact ⟨[], parts file, rfl, goesThrough_of_hits he ⟨c, r, hc, hpath, hr⟩⟩
  -- a single `**` in front would eat the slash behind it
  have hdeep : first ≠ [.deep] := by
    rintro rfl
    exact deep_not_mem (List.forall_mem_map.2 fun s hs => (hchars s hs).1) hfirst (List.mem_singleton_self _)
  obtain ⟨lead, hsteps⟩ := exists_steps_append hnil hdeep (List.cons_ne_nil .deep [.name (extended e)])
  rw [hsteps] at hc
  obtain ⟨a, _, -, hb, rfl⟩ := eats_append.1 hc
  obtain ⟨d, rfl, hd⟩ := eats_stepsAfter_deep.1 hb
  have hcut : file = String.ofList a ++ "/" ++ String.ofList (d ++ r) := by
    rw [← String.toList_inj, hpath]
    simp
  exact ⟨parts (String.ofList a), parts (String.ofList (d ++ r)), by rw [hcut, Path.parts_append],
    goesThrough_of_hits he ⟨d, r, hd, String.toList_ofList, hr⟩⟩

/-! ### Parts that stand for themselves -/

/-- How a line is read below parts that stand for themselves. -/
theorem ofLine_sourceLine_iff (hstart : Written start) (hliteral : ∀ s ∈ start, Literal s.toList)
    (hmark : (joined start).toList.head? ≠ some '!') (he : e ∈ sourceExtensions) :
    Pattern.ofLine (Spec.anchor (sourceLine start e)) = .ok (some p) ↔
      p = ⟨false, false, names (start.map String.toList) ++ [.deep, .name (extended e)]⟩ := by
  have hsplit := splitOn_sourceLine hstart he
  have hne : (sourceLine start e).toList ≠ [] := by
    intro hnil
    rw [hnil, Text.splitOn] at hsplit
    exact absurd (congrArg List.getLast? hsplit) (by simp)
  have hname : ([] :: (start.map String.toList ++ [['*', '*'], '*' :: '.' :: e.toList])).getLast? ≠ some [] := by
    rw [← List.cons_append, List.getLast?_append_of_ne_nil _ (List.cons_ne_nil _ _)]
    simp
  have hsegments : (start.map String.toList ++ [['*', '*'], '*' :: '.' :: e.toList]).mapM segment? =
      some (names (start.map String.toList) ++ [.deep, .name (extended e)]) :=
    mapM_segment?_append.2 ⟨_, _, mapM_segment?_names (List.forall_mem_map.2 hliteral),
      mapM_segment?_extended he, rfl⟩
  have hstar : ∀ s ∈ start, '*' ∉ s.toList := fun s hs h => (hliteral s hs '*' h).1 rfl
  rw [anchor_sourceLine hstart hmark he, Pattern.ofLine_anchored_iff hne (ends_sourceLine hstart he).2,
    collapseDeep_sourceLine hstart hstar he, hsegments, Text.splitOn, if_pos rfl, hsplit]
  simp only [Option.some.injEq, exists_eq_left', decide_eq_false hname]

/-- The steps of a line hit what goes on from the parts. -/
theorem hits_onward_iff (hstart : Written start) :
    (∃ c r, Eats (steps (names (start.map String.toList) ++ [.deep, .name (extended e)])) c ∧
      file.toList = c ++ r ∧ Stops r) ↔ ∃ rest, file = onward start rest ∧ Hits e rest.toList := by
  by_cases hnil : start = []
  · subst hnil
    simp only [Path.onward_nil, exists_eq_left']
    rfl
  have hparts : start.map String.toList = Text.splitOn '/' (joined start).toList := by
    rw [Path.splitOn_toList, Path.parts_joined hstart hnil]
  simp only [hparts, steps_names, eats_literally, eats_stepsAfter_deep, Hits, ← String.toList_inj,
    Path.toList_onward hnil]
  constructor
  · rintro ⟨_, r, ⟨_, ⟨d, rfl, hd⟩, rfl⟩, hfile, hr⟩
    exact ⟨String.ofList (d ++ r), by simpa using hfile, d, r, hd, String.toList_ofList, hr⟩
  · rintro ⟨rest, hfile, d, r, hd, hrest, hr⟩
    exact ⟨_, r, ⟨_, ⟨d, rfl, hd⟩, rfl⟩, by simp [hfile, hrest], hr⟩

/-- A path that goes on from some parts and then through a source file. -/
theorem exists_below_iff (hstart : Written start) (hfile : Text.Regular file.toList) :
    (∃ below, parts file = start ++ below ∧ GoesThrough below) ↔
      ∃ rest, file = onward start rest ∧ GoesThrough (parts rest) := by
  constructor
  · rintro ⟨below, hparts, hthrough⟩
    have hne : below ≠ [] := by
      rintro rfl
      obtain ⟨before, part, after, h, -⟩ := hthrough
      exact absurd (List.append_eq_nil_iff.1 h.symm).2 (List.cons_ne_nil part after)
    have hwritten : Written below := by
      have h := Path.written_ofText file
      rw [Path.ofText_regular hfile, hparts] at h
      exact fun s hs => h s (List.mem_append_right _ hs)
    refine ⟨joined below, ?_, by rwa [Path.parts_joined hwritten hne]⟩
    rw [← Path.joined_append_eq_onward start hne, ← hparts, Path.joined_parts]
  · rintro ⟨rest, rfl, hthrough⟩
    exact ⟨parts rest, Path.parts_onward hstart rest, hthrough⟩

/-- **What the glob of source files matches** below parts that stand for themselves: what goes on from
the parts and through a source file. -/
theorem includes_sources_iff (hstart : Written start)
    (hliteral : ∀ s ∈ start, Literal s.toList ∧ '\x7b' ∉ s.toList)
    (hmark : (joined start).toList.head? ≠ some '!') (hfile : Text.Regular file.toList) :
    Includes (onward start sourceGlob) file.toList ↔
      ∃ below, parts file = start ++ below ∧ GoesThrough below := by
  have hexpand (x : String) := mem_expandBraces_sources (y := x) fun s hs => (hliteral s hs).2
  have hofLine {e : String} {p : Pattern} (he : e ∈ sourceExtensions) :=
    ofLine_sourceLine_iff (p := p) hstart (fun s hs => (hliteral s hs).1) hmark he
  rw [exists_below_iff hstart hfile]
  constructor
  · rintro ⟨x, hx, p, hp, -, hw⟩
    obtain ⟨e, he, rfl⟩ := (hexpand x).1 hx
    obtain rfl := (hofLine he).1 hp
    obtain ⟨rest, hrest, hhits⟩ := (hits_onward_iff hstart).1 ((weight?_isSome_of_extended rfl).1 hw)
    exact ⟨rest, hrest, goesThrough_of_hits he hhits⟩
  · rintro ⟨rest, rfl, hthrough⟩
    obtain ⟨e, he, hhits⟩ := exists_hits_of_goesThrough (Path.regular_onward hfile) hthrough
    exact ⟨_, (hexpand _).2 ⟨e, he, rfl⟩, _, (hofLine he).2 rfl, rfl,
      (weight?_isSome_of_extended rfl).2 ((hits_onward_iff hstart).2 ⟨rest, rfl, hhits⟩)⟩

/-- Each line of source files includes and is read. -/
theorem of_mem_lines_sources (hstart : Written start)
    (hliteral : ∀ s ∈ start, Literal s.toList ∧ '\x7b' ∉ s.toList)
    (hmark : (joined start).toList.head? ≠ some '!') {line : String}
    (hline : line ∈ Spec.lines [onward start sourceGlob]) :
    line.toList.head? = some '/' ∧ ∃ p, Pattern.ofLine line = .ok (some p) := by
  rw [Spec.lines, List.flatMap_singleton, List.mem_map] at hline
  obtain ⟨_, hx, rfl⟩ := hline
  obtain ⟨e, he, rfl⟩ := (mem_expandBraces_sources fun s hs => (hliteral s hs).2).1 hx
  refine ⟨?_, _, (ofLine_sourceLine_iff hstart (fun s hs => (hliteral s hs).1) hmark he).2 rfl⟩
  rw [anchor_sourceLine hstart hmark he, String.toList_ofList]
  rfl

end Glob
end LintMerge
