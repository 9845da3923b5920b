/-
# Spans of octets in the output of biome

Biome tells where an issue lies by two offsets into a copy of the file, and it counts the octets of
UTF-8 before them. The reader counts characters: it takes an offset for the number of a character
and gives the line and the column of that one (`Biome.exists_issue?`). So an issue starts, or ends,
where biome says it does exactly when the characters before that place are all ASCII, or when the
place is the end of the file, which no offset goes beyond (`Biome.parse_octets`). Behind any other
character it lies too far on, by as many characters as there are octets more than characters before
it (`Biome.not_parse_octets`).
-/

import LintMerge.Proofs.Output.Refusals
import LintMerge.Proofs.Text.Boundaries

namespace LintMerge

namespace Span

/-- Where a span starts. -/
def first (s : Span) : Position := ⟨s.line, s.column⟩

/-- Where a span ends. -/
def last (s : Span) : Position := ⟨s.endLine, s.endColumn⟩

/-- The span from the end of a start of a text to the end of the text. -/
def between {s t : List Char} (h : s <+: t) : Span where
  line := (Position.behind s).line
  column := (Position.behind s).column
  endLine := (Position.behind t).line
  endColumn := (Position.behind t).column
  one_le_line := Nat.le_add_right _ _
  one_le_column := Nat.le_add_right _ _
  one_le_endColumn := Nat.le_add_right _ _
  ordered := Position.behind_le_behind h

end Span

namespace Output

namespace Biome

open Text.Utf8

variable {root : Path} {d : Value} {source : String} {start stop : Int} {i : Issue}

/-- No half of a pair stands in the name of a rule that a whole category tells. -/
theorem tornRule_of_whole (h : torn? (d.field "category") = none) :
    (categoryGlyphs d).getLast?.bind Torn.of? = none := by
  rw [Option.bind_eq_none_iff]
  intro segment hsegment
  have hmem := List.mem_of_mem_filter (List.mem_of_getLast? hsegment)
  have hwhole : ∀ v : Value, torn? v = none → ∀ g ∈ v.glyphs, g.isHalf = false := by
    intro v hv g hg
    cases v with
    | null => cases hg
    | torn t => cases hv
    | _ =>
      obtain ⟨c, -, rfl⟩ := List.mem_map.1 hg
      rfl
  rw [Torn.of?_eq_none_iff, List.any_eq_false]
  intro g hg
  rw [hwhole _ h g (Text.subset_of_mem_splitOn hmem hg)]
  decide

/-- A diagnostic is located in a file with some text, from an offset to another. -/
structure Locates (d : Value) (source : String) (start stop : Int) : Prop where
  source : ((d.field "location").field "sourceCode").string? = some source
  file : ∃ file, file? ((d.field "location").field "path") = some file
  span : pair? ((d.field "location").field "span") = some (start, stop)

/-- A diagnostic that is not located has no issue. -/
theorem issue?_of_not_locates (h : ∀ source start stop, ¬ Locates d source start stop) :
    issue? root d = .ok none := by
  rw [issue?]
  split
  · next hsource hfile hspan => exact absurd ⟨hsource, ⟨_, hfile⟩, hspan⟩ (h _ _ _)
  · rfl

/-- **A diagnostic that is located by offsets that run forward has an issue**, from the end of as
many characters as the first offset says to the end of as many as the second does. -/
theorem exists_issue? (root : Path) (hd : Locates d source start stop) (hle : start ≤ stop)
    (hwhole : torn? (d.field "category") = none) :
    ∃ i, issue? root d = .ok (some i) ∧
      i.span.first = Position.behind (source.toList.take start.toNat) ∧
      i.span.last = Position.behind (source.toList.take stop.toNat) := by
  obtain ⟨hsource, ⟨file, hfile⟩, hspan⟩ := hd
  have hforward : source.toList.take start.toNat <+: source.toList.take stop.toNat :=
    List.take_prefix_take_left (Int.toNat_le_toNat hle)
  rw [issue?]
  simp only [hsource, hfile, hspan, Position.ofSpan_eq, Position.ofOffset_eq]
  have hpath := Issue.isPath_key root file
  rw [Issue.ofDraft_at (s := .between hforward) hpath (ruleOf_ne_empty _ _) (tornRule_of_whole hwhole)
    rfl rfl rfl rfl]
  exact ⟨_, rfl, rfl, rfl⟩

/-- A diagnostic whose offsets run forward, if it is located, and in whose category no half of a pair
stands. -/
def RunsForward (d : Value) : Prop :=
  ∀ source start stop, Locates d source start stop → start ≤ stop ∧ torn? (d.field "category") = none

/-- Output whose diagnostics all run forward is read. -/
theorem exists_parse (root : Path) {output : String} {ds : List Value}
    (hds : diagnostics "biome" output = .ok ds) (hforward : ∀ d ∈ ds, RunsForward d) :
    ∃ issues, parse root output = .ok issues := by
  have hissue : ∀ d ∈ ds, ∃ found, issue? root d = .ok found := by
    intro d hd
    by_cases hlocated : ∃ source start stop, Locates d source start stop
    · obtain ⟨source, start, stop, hlocates⟩ := hlocated
      obtain ⟨hle, hwhole⟩ := hforward d hd _ _ _ hlocates
      obtain ⟨i, hi, -⟩ := exists_issue? root hlocates hle hwhole
      exact ⟨some i, hi⟩
    · exact ⟨none, issue?_of_not_locates fun _ _ _ h => hlocated ⟨_, _, _, h⟩⟩
  cases h : parse root output with
  | ok issues => exact ⟨issues, rfl⟩
  | error f =>
    rcases Faulty.bind_eq_error.1 h with hf | ⟨_, hds', hf⟩
    · cases hds.symm.trans hf
    · cases hds.symm.trans hds'
      rcases Faulty.bind_eq_error.1 hf with hf | ⟨_, -, hf⟩
      · obtain ⟨d, hd, hf⟩ := Faulty.exists_of_mapM_eq_error hf
        obtain ⟨found, hfound⟩ := hissue d hd
        cases hfound.symm.trans hf
      · cases hf

/-- The issue of a diagnostic is among those that are read with it. -/
theorem mem_of_parse {output : String} {ds : List Value} {issues : List Issue}
    (hds : diagnostics "biome" output = .ok ds) (hd : d ∈ ds) (hi : issue? root d = .ok (some i))
    (h : parse root output = .ok issues) : i ∈ issues := by
  obtain ⟨_, hds', h⟩ := Faulty.bind_eq_ok.1 h
  cases hds.symm.trans hds'
  obtain ⟨found, hfound, h⟩ := Faulty.bind_eq_ok.1 h
  rw [← Faulty.pure_eq_ok.1 h, List.mem_filterMap]
  obtain ⟨_, hmem, hi'⟩ := Faulty.exists_of_mem_of_mapM hfound hd
  cases hi.symm.trans hi'
  exact ⟨_, hmem, rfl⟩

/-- A diagnostic is located by octets: its span is a part of the text of its file, told by the
octets before it and by those up to its end. -/
structure LocatesOctets (d : Value) (before inside after : List Char) : Prop where
  locates : Locates d (String.ofList (before ++ inside ++ after)) (encode before).length
    (encode (before ++ inside)).length
  whole : torn? (d.field "category") = none

variable {before inside after : List Char}

/-- Octets run forward. -/
theorem LocatesOctets.runsForward (hd : LocatesOctets d before inside after) : RunsForward d := by
  intro source start stop h
  have hle : ((encode before).length : Int) ≤ (encode (before ++ inside)).length := by
    rw [encode, encode, List.flatMap_append, List.length_append]
    omega
  cases hd.locates.span.symm.trans h.span
  exact ⟨hle, hd.whole⟩

/-- The reader takes numbers of octets for numbers of characters. -/
theorem LocatesOctets.exists_issue? (root : Path) (hd : LocatesOctets d before inside after) :
    ∃ i, issue? root d = .ok (some i) ∧
      i.span.first =
        Position.behind ((before ++ inside ++ after).take (encode before).length) ∧
      i.span.last =
        Position.behind ((before ++ inside ++ after).take (encode (before ++ inside)).length) := by
  simpa only [String.toList_ofList, Int.toNat_natCast] using
    Biome.exists_issue? root hd.locates (hd.runsForward _ _ _ hd.locates).1 hd.whole

/-- The diagnostic of a part of the text of a file. -/
def diagnostic (file : String) (before inside after : List Char) : Value :=
  .table [("location", .table [("path", .text file),
    ("span", .list [.int (encode before).length, .int (encode (before ++ inside)).length]),
    ("sourceCode", .text (String.ofList (before ++ inside ++ after)))])]

/-- What biome prints of one part of the text of a file. -/
def printed (file : String) (before inside after : List Char) : String :=
  Json.write .compact (.table [("diagnostics", .list [diagnostic file before inside after])])

theorem locatesOctets_diagnostic {file : String} (hfile : file ≠ "") :
    LocatesOctets (diagnostic file before inside after) before inside after where
  locates := {
    source := rfl
    file := ⟨file, show (some file).filter (· ≠ "") = some file from
      Option.filter_eq_some_iff.2 ⟨rfl, decide_eq_true hfile⟩⟩
    span := rfl }
  whole := rfl

/-- **Each part of each text can be printed**, and is read back as the diagnostic that it is. -/
theorem diagnostics_printed (file : String)
    (hstart : (toString ((encode before).length : Int)).length ≤ Text.maxDigits)
    (hstop : (toString ((encode (before ++ inside)).length : Int)).length ≤ Text.maxDigits) :
    diagnostics "biome" (printed file before inside after) =
      .ok [diagnostic file before inside after] := by
  have hwritable : Json.Writable Json.Strict.maxDepth
      (.table [("diagnostics", .list [diagnostic file before inside after])]) := by
    have hpair : Json.Writable (Json.Strict.maxDepth - 4)
        (.list [.int (encode before).length, .int (encode (before ++ inside)).length]) := by
      refine .list (.inr (by decide)) fun v hv => ?_
      rcases List.mem_pair.1 hv with rfl | rfl
      · exact .int hstart
      · exact .int hstop
    refine .table (.inr (by decide)) (by simp) fun e he => ?_
    rw [List.mem_singleton.1 he]
    refine .list (.inr (by decide)) fun v hv => ?_
    rw [List.mem_singleton.1 hv]
    refine .table (.inr (by decide)) (by simp) fun e he => ?_
    rw [List.mem_singleton.1 he]
    refine .table (.inr (by decide)) (by simp) fun e he => ?_
    rcases List.mem_cons.1 he with rfl | he
    · exact .text
    · rcases List.mem_pair.1 he with rfl | rfl
      · exact hpair
      · exact .text
  exact diagnostics_of_prints (prints_write hwritable) rfl

/-- **Octets taken for characters.** A diagnostic that is located by octets has an issue, which is
read with the others if these run forward. It starts at the start of the span exactly when all
characters before the span are ASCII or the span is at the end of the text, and it ends at the end
of the span exactly when all characters up to there are ASCII or no character follows. -/
theorem parse_octets (root : Path) {output : String} {ds : List Value} {d : Value}
    {before inside after : List Char} (hds : diagnostics "biome" output = .ok ds) (hmem : d ∈ ds)
    (hd : LocatesOctets d before inside after) :
    ((∀ d ∈ ds, RunsForward d) → ∃ issues, parse root output = .ok issues) ∧
    ∃ i, issue? root d = .ok (some i) ∧ (∀ issues, parse root output = .ok issues → i ∈ issues) ∧
      (i.span.first = Position.behind before ↔ IsAscii before ∨ inside = [] ∧ after = []) ∧
      (i.span.last = Position.behind (before ++ inside) ↔
        IsAscii (before ++ inside) ∨ after = []) := by
  refine ⟨exists_parse root hds, ?_⟩
  obtain ⟨i, hi, hfirst, hlast⟩ := hd.exists_issue? root
  refine ⟨i, hi, fun issues h => mem_of_parse hds hmem hi h, ?_, ?_⟩
  · have hbefore : before <+: before ++ inside ++ after := by
      rw [List.append_assoc]
      exact List.prefix_append _ _
    rw [hfirst, Position.behind_take_length_encode_iff hbefore, List.append_assoc,
      List.self_eq_append_right, List.append_eq_nil_iff]
  · rw [hlast, Position.behind_take_length_encode_iff (List.prefix_append _ _),
      List.self_eq_append_right]

/-- The hypotheses of `parse_octets` hold together: of two characters the first is ASCII and the
second is not, and a span of the second ends with the text. -/
theorem parse_octets_last :
    diagnostics "biome" (printed "a.js" ['='] ['é'] []) = .ok [diagnostic "a.js" ['='] ['é'] []] ∧
    LocatesOctets (diagnostic "a.js" ['='] ['é'] []) ['='] ['é'] [] ∧
    ∃ issues, parse ⟨1, ["project"]⟩ (printed "a.js" ['='] ['é'] []) = .ok issues ∧
      ∃ i ∈ issues, i.span.first = ⟨1, 2⟩ ∧ i.span.last = ⟨1, 3⟩ := by
  have hds : diagnostics "biome" (printed "a.js" ['='] ['é'] []) =
      .ok [diagnostic "a.js" ['='] ['é'] []] := diagnostics_printed _ (by decide) (by decide)
  have hd : LocatesOctets (diagnostic "a.js" ['='] ['é'] []) ['='] ['é'] [] :=
    locatesOctets_diagnostic (by decide)
  obtain ⟨hparse, i, -, hmem, hfirst, hlast⟩ :=
    parse_octets ⟨1, ["project"]⟩ hds (List.mem_singleton.2 rfl) hd
  obtain ⟨issues, hissues⟩ := hparse fun e he => by
    rw [List.mem_singleton.1 he]
    exact hd.runsForward
  exact ⟨hds, hd, issues, hissues, i, hmem issues hissues, hfirst.2 (.inl (by decide)),
    hlast.2 (.inr rfl)⟩

/-- **Spans behind a character that is not ASCII are misplaced.** Such a character and the two
behind it are a text, and the span of the second one is told by the octets 2 and 3: it is read as
that of the third one. -/
theorem not_parse_octets : ¬ ∀ (root : Path) (output : String) (ds : List Value) (d : Value)
    (before inside after : List Char), diagnostics "biome" output = .ok ds → d ∈ ds →
    LocatesOctets d before inside after → ∀ issues, parse root output = .ok issues →
    ∃ i ∈ issues, i.span.first = Position.behind before ∧
      i.span.last = Position.behind (before ++ inside) := by
  intro h
  have hds : diagnostics "biome" (printed "a.js" ['é'] ['='] ['1']) =
      .ok [diagnostic "a.js" ['é'] ['='] ['1']] := diagnostics_printed _ (by decide) (by decide)
  have hd : LocatesOctets (diagnostic "a.js" ['é'] ['='] ['1']) ['é'] ['='] ['1'] :=
    locatesOctets_diagnostic (by decide)
  obtain ⟨issues, hissues⟩ := exists_parse ⟨1, ["project"]⟩ hds fun e he => by
    rw [List.mem_singleton.1 he]
    exact hd.runsForward
  obtain ⟨i, hi, hfirst, -⟩ := h _ _ _ _ _ _ _ hds (List.mem_singleton.2 rfl) hd issues hissues
  obtain ⟨_, hds', hlocated⟩ := Faulty.bind_eq_ok.1 hissues
  cases hds.symm.trans hds'
  obtain ⟨_, hmem, hissue⟩ := exists_of_mem_located hlocated hi
  rw [List.mem_singleton.1 hmem] at hissue
  obtain ⟨_, hissue', hread, -⟩ := hd.exists_issue? ⟨1, ["project"]⟩
  cases hissue.symm.trans hissue'
  exact absurd (hfirst.symm.trans hread) (by decide)

end Biome
end Output
end LintMerge
