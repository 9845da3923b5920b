/-
# Inverted spans in the output of biome

Biome tells a span by two offsets into the text of a file. An offset that is out of the text stands
for the end of it that is nearer (`Position.place`), and of two places the later one has the later
position, so the numbers of an issue are those of a span exactly when its offsets, put into the
text, run forward (`Position.misplaced_ofPlace_iff`). A diagnostic that tells a text, a file and two
offsets is located (`Biome.Lies`); all that are located are kept in their order (`Biome.Tells`),
unless one of them is inverted (`Biome.parse_located`).
-/

import Mathlib
import LintMerge.Proofs.Output.Spans
import LintMerge.Proofs.Text.Offsets

namespace LintMerge

namespace Position

variable {s : List Char} {p q : Nat}

/-- **The positions of two places are those of a span** unless the second place is before the first. -/
theorem misplaced_ofPlace_iff (hp : p ≤ s.length) (hq : q ≤ s.length) :
    Span.Misplaced (ofPlace s p).line (ofPlace s p).column (ofPlace s q).line (ofPlace s q).column ↔
      q < p := by
  have one_le (r : Nat) : 1 ≤ (ofPlace s r).line ∧ 1 ≤ (ofPlace s r).column := by
    have hle := lineStart_le s r
    show 1 ≤ 1 + (s.take r).count '\n' ∧ 1 ≤ 1 + r - lineStart s r
    omega
  have hp1 := one_le p
  have hq1 := one_le q
  unfold Span.Misplaced
  rcases lt_trichotomy p q with hpq | rfl | hqp
  · have hbefore := before_ofPlace hpq hq
    unfold Before at hbefore
    omega
  · omega
  · have hbefore := before_ofPlace hqp hp
    unfold Before at hbefore
    omega

end Position

/-- The segment before the last one. -/
theorem getElem?_length_sub_two {ss : List String} {g : String} (h : 2 ≤ ss.length) :
    ss[ss.length - 2]? = some g ↔ ∃ before last, ss = before ++ [g, last] := by
  constructor
  · intro hg
    obtain ⟨hlt, hget⟩ := List.getElem?_eq_some_iff.1 hg
    have hlast : ss.length - 2 + 1 < ss.length := by omega
    refine ⟨ss.take (ss.length - 2), ss[ss.length - 2 + 1], ?_⟩
    conv => lhs; rw [← List.take_append_drop (ss.length - 2) ss]
    rw [List.drop_eq_getElem_cons hlt, List.drop_eq_getElem_cons hlast, hget,
      List.drop_of_length_le (by omega)]
  · rintro ⟨before, last, rfl⟩
    simp

namespace Output
namespace Biome

variable {root : Path} {d : Value} {source file : String} {start stop : Int} {i : Issue}

/-- A path names a file: it is not empty, and where it is a table the entry of the file counts. -/
def Names (path : Value) (file : String) : Prop :=
  (isTable path = true ∧ text? (path.field "file") = some file ∨
    isTable path = false ∧ text? path = some file) ∧ file ≠ ""

theorem file?_eq_some_iff {path : Value} : file? path = some file ↔ Names path file := by
  rw [file?, fileValue, someText?_eq_some_iff, Names]
  cases isTable path <;> simp

/-- Where a diagnostic lies: in a file with some text, from one offset to another. -/
structure Lies (d : Value) (source file : String) (start stop : Int) : Prop where
  table : isTable d = true
  location : isTable (d.field "location") = true
  source : ((d.field "location").field "sourceCode").string? = some source
  named : Names ((d.field "location").field "path") file
  span : IsPair ((d.field "location").field "span") start stop

/-- A diagnostic that is located. -/
def Located (d : Value) : Prop := ∃ source file start stop, Lies d source file start stop

theorem Located.isTable (h : Located d) : isTable d = true := by
  obtain ⟨_, _, _, _, hlies⟩ := h
  exact hlies.table

/-- A diagnostic that ends before it starts, when both offsets are put into the text. -/
def Inverted (d : Value) : Prop :=
  ∃ source file start stop, Lies d source file start stop ∧
    min (max stop 0) source.toList.length < min (max start 0) source.toList.length

theorem Inverted.located (h : Inverted d) : Located d := by
  obtain ⟨_, _, _, _, hlies, -⟩ := h
  exact ⟨_, _, _, _, hlies⟩

theorem lies_iff : Lies d source file start stop ↔
    ((d.field "location").field "sourceCode").string? = some source ∧
      file? ((d.field "location").field "path") = some file ∧
      pair? ((d.field "location").field "span") = some (start, stop) := by
  rw [file?_eq_some_iff, pair?_eq_some_iff]
  constructor
  · rintro ⟨-, -, hsource, hfile, hspan⟩
    exact ⟨hsource, hfile, hspan⟩
  · rintro ⟨hsource, hfile, hspan⟩
    have hlocation : isTable (d.field "location") = true := isTable_of_field fun h => by
      rw [h] at hsource
      cases hsource
    have htable : isTable d = true := isTable_of_field fun h => by
      rw [h] at hlocation
      cases hlocation
    exact ⟨htable, hlocation, hsource, hfile, hspan⟩

/-- A diagnostic lies at one place at most. -/
theorem Lies.unique {source' file' : String} {start' stop' : Int} (h : Lies d source file start stop)
    (h' : Lies d source' file' start' stop') :
    source = source' ∧ file = file' ∧ start = start' ∧ stop = stop' := by
  obtain ⟨hsource, hfile, hspan⟩ := lies_iff.1 h
  obtain ⟨hsource', hfile', hspan'⟩ := lies_iff.1 h'
  cases hsource.symm.trans hsource'
  cases hfile.symm.trans hfile'
  cases hspan.symm.trans hspan'
  exact ⟨rfl, rfl, rfl, rfl⟩

instance : DecidablePred Located := fun d =>
  decidable_of_iff (((d.field "location").field "sourceCode").string?.isSome ∧
    (file? ((d.field "location").field "path")).isSome ∧
    (pair? ((d.field "location").field "span")).isSome) (by
    simp only [Located, lies_iff, Option.isSome_iff_exists]
    constructor
    · rintro ⟨⟨source, hsource⟩, ⟨file, hfile⟩, ⟨start, stop⟩, hspan⟩
      exact ⟨source, file, start, stop, hsource, hfile, hspan⟩
    · rintro ⟨source, file, start, stop, hsource, hfile, hspan⟩
      exact ⟨⟨source, hsource⟩, ⟨file, hfile⟩, (start, stop), hspan⟩)

/-- An issue that says what a diagnostic says. Its rule is the last segment of the category, and the
one before it is the group of the rule where there is a third one before that. -/
structure Tells (root : Path) (d : Value) (i : Issue) : Prop where
  place : ∃ source file start stop, Lies d source file start stop ∧ i.path = root.key file ∧
    i.span.first = Position.ofPlace source.toList (Position.place source.toList start) ∧
    i.span.last = Position.ofPlace source.toList (Position.place source.toList stop)
  rule : category d = [] ∧ i.ruleId = "biome/parse-error" ∨
    ∃ before rule, category d = before ++ [rule] ∧ i.ruleId = "biome/" ++ rule
  about : ∃ about, i.about = some about ∧ ∀ group, about.category = some group ↔
    ∃ before rule, before ≠ [] ∧ category d = before ++ [group, rule]
  text : i.message = Biome.message d
  source : i.source = .biome
  fix : i.fix = none

/-- The group of a rule, which only a category of three segments or more has. -/
theorem group_eq_some_iff {ss : List String} {group : String} :
    (if 3 ≤ ss.length then ss[ss.length - 2]? else none) = some group ↔
      ∃ before rule, before ≠ [] ∧ ss = before ++ [group, rule] := by
  split
  · next h =>
    rw [getElem?_length_sub_two (by omega)]
    refine exists_congr fun before => exists_congr fun rule => (and_iff_right_of_imp ?_).symm
    rintro rfl rfl
    simp at h
  · next h =>
    refine iff_of_false (by simp) ?_
    rintro ⟨before, rule, hne, rfl⟩
    have hpos := List.length_pos_of_ne_nil hne
    have hlength : (before ++ [group, rule]).length = before.length + 2 := List.length_append
    omega

/-- A diagnostic that is not located is left out. -/
theorem issue?_of_not_located (h : ¬ Located d) : issue? root d = .ok none :=
  issue?_of_not_locates fun source start stop hd => by
    obtain ⟨file, hfile⟩ := hd.file
    exact h ⟨source, file, start, stop, lies_iff.2 ⟨hd.source, hfile, hd.span⟩⟩

/-- A diagnostic that is located is refused where it is inverted. -/
theorem judged_issue? (root : Path) (h : Lies d source file start stop)
    (hwhole : torn? (d.field "category") = none) :
    Judged (min (max stop 0) source.toList.length < min (max start 0) (source.toList.length : Int))
      (fun found => ∃ i, found = some i ∧ Tells root d i) (issue? root d) := by
  obtain ⟨hsource, hfile, hspan⟩ := lies_iff.1 h
  have hmisplaced := Position.misplaced_ofPlace_iff
    (show Position.place source.toList start ≤ source.toList.length from Nat.min_le_right _ _)
    (show Position.place source.toList stop ≤ source.toList.length from Nat.min_le_right _ _)
  have hinverted : Position.place source.toList stop < Position.place source.toList start ↔
      min (max stop 0) source.toList.length < min (max start 0) (source.toList.length : Int) := by
    unfold Position.place
    omega
  rw [issue?]
  simp only [hsource, hfile, hspan, Position.ofSpan_eq, Position.ofOffset_place]
  refine Judged.bind_pure ((judged_ofDraft (Issue.isPath_key root file) (ruleOf_ne_empty _ _)
    (tornRule_of_whole hwhole)).mono (hmisplaced.trans hinverted) fun _ h => h) fun i hi => ?_
  obtain ⟨hpath, hline, hcolumn, hendLine, hendColumn, -, hrule, htext, hissue, hfix, habout, -⟩ :=
    Issue.ofDraft_eq_ok.1 hi
  dsimp only at hpath hline hcolumn hendLine hendColumn hrule htext hissue hfix habout
  have hfirst : i.span.first = Position.ofPlace source.toList (Position.place source.toList start) := by
    rw [Span.first, Int.ofNat_inj.1 hline, Int.ofNat_inj.1 hcolumn]
  have hlast : i.span.last = Position.ofPlace source.toList (Position.place source.toList stop) := by
    rw [Span.last, Int.ofNat_inj.1 hendLine, Int.ofNat_inj.1 hendColumn]
  refine ⟨i, rfl, ⟨source, file, start, stop, h, hpath, hfirst, hlast⟩, ?_,
    ⟨_, habout, fun group => group_eq_some_iff⟩, htext, hissue, hfix⟩
  rw [hrule]
  rcases List.eq_nil_or_concat (category d) with hnil | ⟨before, rule, hsegments⟩
  · rw [hnil]
    exact .inl ⟨rfl, rfl⟩
  · rw [hsegments, List.concat_eq_append, List.getLast?_append]
    exact .inr ⟨before, rule, rfl, rfl⟩

/-- **Diagnostics are refused exactly when one is inverted**, if no half of a pair stands in their
categories. Otherwise there is one issue for each that is located, in their order, and none for the
others. -/
theorem parse_located (root : Path) {output : String} {items : List Value}
    (hitems : Diagnoses output items) (hwhole : ∀ d ∈ items, torn? (d.field "category") = none) :
    (Invalid (parse root output) ↔ ∃ d ∈ items, Inverted d) ∧
    ((¬ ∃ d ∈ items, Inverted d) → ∃ issues, parse root output = .ok issues ∧
      List.Forall₂ (Tells root) (items.filter Located) issues) := by
  have hlocated (d : Value) (hd : d ∈ items) (h : Located d) : Judged (Inverted d)
      (fun found => ∃ i, found = some i ∧ Tells root d i) (issue? root d) := by
    obtain ⟨source, file, start, stop, hlies⟩ := h
    refine (judged_issue? root hlies (hwhole d hd)).mono ⟨fun h => ⟨_, _, _, _, hlies, h⟩, ?_⟩ fun _ h => h
    rintro ⟨_, _, _, _, hlies', h⟩
    obtain ⟨rfl, rfl, rfl, rfl⟩ := hlies.unique hlies'
    exact h
  have hparse : Judged (∃ d ∈ items, Inverted d)
      (List.Forall₂ (Tells root) (items.filter Located)) (parse root output) :=
    judged_diagnostics hitems (fun _ h => h.isTable) (fun _ h => h.located)
      (fun _ h => issue?_of_not_located h) hlocated
  exact ⟨hparse.invalid_iff, hparse.exists_ok⟩

/-- A diagnostic with a span of a text of two lines. -/
def spanning (start stop : Int) : Value :=
  .table [("category", .text "lint/style/noVar"),
    ("location", .table [("path", .text "a"), ("span", .list [.int start, .int stop]),
      ("sourceCode", .text "x\ny")])]

theorem lies_spanning (start stop : Int) : Lies (spanning start stop) "x\ny" "a" start stop :=
  lies_iff.2 ⟨rfl, show someText? (.text "a") = some "a" by decide, rfl⟩

theorem inverted_spanning_iff {start stop : Int} :
    Inverted (spanning start stop) ↔ min (max stop 0) 3 < min (max start 0) 3 := by
  constructor
  · rintro ⟨source, file, start', stop', hlies, h⟩
    obtain ⟨rfl, rfl, rfl, rfl⟩ := (lies_spanning start stop).unique hlies
    exact h
  · exact fun h => ⟨_, _, _, _, lies_spanning start stop, h⟩

/-- The hypotheses of `parse_located` hold together. Of two diagnostics the second one is not located,
and the first one lies from the first line to the end of the text, which its second offset is past;
the other way round it is refused. -/
theorem parse_located_sample : ∃ forward backward : String,
    Diagnoses forward [spanning 1 9, .table []] ∧ Diagnoses backward [spanning 9 1, .table []] ∧
    (∃ i, parse ⟨1, ["project"]⟩ forward = .ok [i] ∧ i.span.first = ⟨1, 2⟩ ∧ i.span.last = ⟨2, 2⟩ ∧
      ∃ about, i.about = some about ∧ about.category = some "style") ∧
    Invalid (parse ⟨1, ["project"]⟩ backward) := by
  have hforward : Diagnoses
      ("\x7b\"diagnostics\":[\x7b\"category\":\"lint/style/noVar\",\"location\":\x7b\"path\":\"a\"," ++
        "\"span\":[1,9],\"sourceCode\":\"x\\ny\"\x7d\x7d,\x7b\x7d]\x7d")
      [spanning 1 9, .table []] := diagnoses_of_prints (by cbv)
  have hbackward : Diagnoses
      ("\x7b\"diagnostics\":[\x7b\"category\":\"lint/style/noVar\",\"location\":\x7b\"path\":\"a\"," ++
        "\"span\":[9,1],\"sourceCode\":\"x\\ny\"\x7d\x7d,\x7b\x7d]\x7d")
      [spanning 9 1, .table []] := diagnoses_of_prints (by cbv)
  obtain ⟨-, hread⟩ := parse_located ⟨1, ["project"]⟩ hforward (by decide)
  obtain ⟨hrefused, -⟩ := parse_located ⟨1, ["project"]⟩ hbackward (by decide)
  have hnone : ¬ ∃ d ∈ [spanning 1 9, .table []], Inverted d := by
    rintro ⟨d, hd, h⟩
    rcases List.mem_pair.1 hd with rfl | rfl
    · exact absurd (inverted_spanning_iff.1 h) (by decide)
    · exact absurd h.located (by decide)
  obtain ⟨issues, hissues, htells⟩ := hread hnone
  obtain _ | ⟨htold, _ | _⟩ := htells
  obtain ⟨_, _, _, _, hlies, -, hfirst, hlast⟩ := htold.place
  obtain ⟨rfl, rfl, rfl, rfl⟩ := (lies_spanning 1 9).unique hlies
  obtain ⟨about, habout, hgroup⟩ := htold.about
  refine ⟨_, _, hforward, hbackward, ⟨_, hissues, hfirst.trans (by decide), hlast.trans (by decide),
      about, habout, (hgroup "style").2 ⟨["lint"], "noVar", by decide, by decide⟩⟩,
    hrefused.2 ⟨_, List.mem_cons_self, inverted_spanning_iff.2 (by decide)⟩⟩

end Biome
end Output
end LintMerge
