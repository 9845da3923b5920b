/-
# Patterns add up

The search goes over the files below a root once, for all patterns together: their globs become one
list, the files that are named by their paths another, and what is found for both is put in order.
As long as no line of the globs starts with `!` this finds what each of the patterns finds by itself
(`Tree.mem_files_iff`): a glob matches when one of its lines does, and no line takes back what
another has matched. And the patterns together are refused only if one of them is
(`Tree.exists_files_iff_each`).

So lists of patterns act as a union, whatever their order and however often one is repeated
(`Tree.files_append_union`). The result is in strict order (`Tree.pairwise_lt_of_files`), for two
paths below one root that are sorted alike are one.
-/

import LintMerge.Proofs.Tree.Agreement
import Mathlib.Data.List.Sort

namespace LintMerge

namespace Glob

namespace Spec

variable {patterns globs : List String} {spec : Spec}

theorem mem_lines_iff {line : String} :
    line ∈ lines patterns ↔ ∃ glob ∈ patterns, ∃ x ∈ expandBraces glob, anchor x = line := by
  rw [lines, List.mem_flatMap]
  exact exists_congr fun glob => and_congr_right fun _ => List.mem_map

/-- **A list of patterns is read** when each of its lines is. -/
theorem exists_build_iff :
    (∃ spec, build patterns = .ok spec) ↔ ∀ line ∈ lines patterns, ∃ p, Pattern.ofLine line = .ok p := by
  constructor
  · rintro ⟨spec, h⟩ line hline
    obtain ⟨found, hfound, -⟩ := Faulty.bind_eq_ok.1 h
    obtain ⟨p, -, hp⟩ := Faulty.exists_of_mem_of_mapM hfound hline
    exact ⟨p, hp⟩
  · intro hall
    cases hmapM : (lines patterns).mapM Pattern.ofLine with
    | error e =>
      obtain ⟨line, hline, he⟩ := Faulty.exists_of_mapM_eq_error hmapM
      obtain ⟨p, hp⟩ := hall line hline
      rw [he] at hp
      cases hp
    | ok found => exact ⟨⟨found.filterMap id⟩, by rw [build, hmapM]; rfl⟩

/-- What a line is read as is one of the patterns. -/
theorem mem_of_ofLine (h : build patterns = .ok spec) {line : String} (hline : line ∈ lines patterns)
    {p : Pattern} (hp : Pattern.ofLine line = .ok (some p)) : p ∈ spec.patterns := by
  obtain ⟨found, hfound, h⟩ := Faulty.bind_eq_ok.1 h
  cases Faulty.pure_eq_ok.1 h
  obtain ⟨o, ho, hread⟩ := Faulty.exists_of_mem_of_mapM hfound hline
  rw [hp] at hread
  cases hread
  exact List.mem_filterMap.2 ⟨some p, ho, rfl⟩

/-- **Globs match what one of them includes**, when no line takes anything back. -/
theorem isMatch_iff_exists_includes (h : build globs = .ok spec)
    (hlines : ∀ line ∈ lines globs, line.toList.head? ≠ some '!') {path : String}
    (hpath : Text.Regular path.toList) :
    spec.isMatch path = true ↔ ∃ glob ∈ globs, Includes glob path.toList := by
  refine ⟨exists_includes h hpath, ?_⟩
  rintro ⟨glob, hglob, x, hx, p, hp, -, hw⟩
  rw [isMatch_regular (positive_of_build h hlines) hpath]
  exact ⟨p, mem_of_ofLine h (mem_lines_iff.2 ⟨glob, hglob, x, hx, rfl⟩) hp, hw⟩

end Spec

end Glob

namespace Tree

open LintMerge.Path (ofText)

variable {t : Tree} {root f : Path} {pattern : String} {patterns exclude fallback : List String}
  {out : List Path} {excluded : Glob.Spec}

/-- What is read of some patterns: their globs, and what they name. -/
theorem plan_spec {r : Request} (hr : t.plan root patterns = .ok r) :
    r.globs = patterns.flatMap (t.globsOf root) ∧
      ∀ p, p ∈ r.files ↔ ∃ pattern ∈ patterns, t.Names root pattern p := by
  refine ⟨globs_of_foldlM_request hr, fun p => ?_⟩
  rw [(foldlM_request_spec t root patterns {}).2 r hr p]
  exact or_iff_right List.not_mem_nil

/-- A pattern is not refused: it is a glob or a path that can be looked up, and each line of its globs
is read. -/
def Accepts (t : Tree) (root : Path) (pattern : String) : Prop :=
  (hasGlob (seenFrom root pattern) = true ∨ t.isTooLong (root.absolute (seenFrom root pattern)) = false) ∧
  ∀ line ∈ Glob.Spec.lines (t.globsOf root pattern), ∃ p, Glob.Pattern.ofLine line = .ok p

theorem mem_lines_flatMap {globsOf : String → List String} {line : String} :
    line ∈ Glob.Spec.lines (patterns.flatMap globsOf) ↔
      ∃ pattern ∈ patterns, line ∈ Glob.Spec.lines (globsOf pattern) := by
  simp only [Glob.Spec.lines, List.flatMap_assoc, List.mem_flatMap]

/-- **Patterns are refused one by one.** -/
theorem readable_iff_each : t.Readable root patterns exclude ↔
    (∃ excluded, Glob.Spec.build exclude = .ok excluded) ∧ ∀ pattern ∈ patterns, t.Accepts root pattern := by
  constructor
  · rintro ⟨hlooked, hex, hglobs⟩
    obtain ⟨r, hr⟩ := (foldlM_request_spec t root patterns {}).1.2 hlooked
    have hlines := Glob.Spec.exists_build_iff.1 (hglobs r hr)
    rw [(plan_spec hr).1] at hlines
    exact ⟨hex, fun pattern hpattern => ⟨hlooked pattern hpattern, fun line hline =>
      hlines line (mem_lines_flatMap.2 ⟨pattern, hpattern, hline⟩)⟩⟩
  · rintro ⟨hex, haccepts⟩
    refine ⟨fun pattern hpattern => (haccepts pattern hpattern).1, hex, fun r hr => ?_⟩
    rw [(plan_spec hr).1, Glob.Spec.exists_build_iff]
    intro line hline
    obtain ⟨pattern, hpattern, hline⟩ := mem_lines_flatMap.1 hline
    exact (haccepts pattern hpattern).2 line hline

/-- **The search has a result** when it has one for each of the patterns. -/
theorem exists_files_iff_each : (∃ out, t.files root patterns exclude fallback = .ok out) ↔
    (∃ excluded, Glob.Spec.build exclude = .ok excluded) ∧
      ∀ pattern ∈ asked patterns fallback, t.Accepts root pattern :=
  exists_files_iff.trans readable_iff_each

/-- A file below the root that is not excluded, and lies in no folder that is. -/
def Spared (t : Tree) (root : Path) (excluded : Glob.Spec) (file : String) : Prop :=
  ∃ folders, t.Reached root folders file ∧ excluded.isMatch file = false ∧
    ∀ d ∈ folders, excluded.excludes d true = false

/-- A pattern finds a file: it names the file, or a glob of the pattern includes the file, and this is
not excluded. -/
def Finds (t : Tree) (root : Path) (excluded : Glob.Spec) (pattern : String) (f : Path) : Prop :=
  t.Names root pattern f ∨ ∃ file, t.Spared root excluded file ∧ f = root.join (ofText file) ∧
    ∃ glob ∈ t.globsOf root pattern, Glob.Includes glob file.toList

/-- No line of the globs that patterns come to takes back what others match. -/
def Unmarked (t : Tree) (root : Path) (patterns : List String) : Prop :=
  ∀ r, t.plan root patterns = .ok r → ∀ line ∈ Glob.Spec.lines r.globs, line.toList.head? ≠ some '!'

/-- **What patterns find together** is what they find one by one. -/
theorem mem_files_iff (ht : t.root.WellNamed) (hmarks : t.Unmarked root (asked patterns fallback))
    (hex : Glob.Spec.build exclude = .ok excluded)
    (hout : t.files root patterns exclude fallback = .ok out) :
    f ∈ out ↔ ∃ pattern ∈ asked patterns fallback, t.Finds root excluded pattern f := by
  obtain ⟨r, excluded', wanted, hr, hex', hwanted, rfl⟩ := files_eq_ok_iff.1 hout
  rw [hex] at hex'
  cases hex'
  obtain ⟨hglobs, hfiles⟩ := plan_spec hr
  have hincludes {folders : List String} {file : String} (hreached : t.Reached root folders file) :
      wanted.isMatch file = true ↔ ∃ pattern ∈ asked patterns fallback,
        ∃ glob ∈ t.globsOf root pattern, Glob.Includes glob file.toList := by
    rw [Glob.Spec.isMatch_iff_exists_includes hwanted (hmarks r hr) (hreached.spec ht).1, hglobs]
    constructor
    · rintro ⟨glob, hglob, h⟩
      obtain ⟨pattern, hpattern, hglob⟩ := List.mem_flatMap.1 hglob
      exact ⟨pattern, hpattern, glob, hglob, h⟩
    · rintro ⟨pattern, hpattern, glob, hglob, h⟩
      exact ⟨glob, List.mem_flatMap.2 ⟨pattern, hpattern, hglob⟩, h⟩
  rw [mem_inOrder, List.mem_append, hfiles, mem_matching ht]
  constructor
  · rintro (⟨pattern, hpattern, hnames⟩ | ⟨folders, file, hreached, hw, hspared, hopen, rfl⟩)
    · exact ⟨pattern, hpattern, .inl hnames⟩
    · obtain ⟨pattern, hpattern, hglob⟩ := (hincludes hreached).1 hw
      exact ⟨pattern, hpattern, .inr ⟨file, ⟨folders, hreached, hspared, hopen⟩, rfl, hglob⟩⟩
  · rintro ⟨pattern, hpattern, hnames | ⟨file, ⟨folders, hreached, hspared, hopen⟩, rfl, hglob⟩⟩
    · exact .inl ⟨pattern, hpattern, hnames⟩
    · exact .inr ⟨folders, file, hreached, (hincludes hreached).2 ⟨pattern, hpattern, hglob⟩, hspared, hopen,
        rfl⟩

/-- **The result is in strict order**: no path in it is sorted like another. -/
theorem pairwise_lt_of_files (ht : t.root.Proper) (hroot : root.Rooted)
    (hout : t.files root patterns exclude fallback = .ok out) :
    out.Pairwise (fun p q => p.sortKey < q.sortKey) := by
  have hbeside : ∀ p ∈ out, Beside root p := fun p hp => beside_of_mem_files ht hroot hout hp
  obtain ⟨r, excluded, wanted, -, -, -, rfl⟩ := files_eq_ok_iff.1 hout
  refine ((nodup_inOrder _).and (pairwise_inOrder _)).imp_of_mem fun {p q} hp hq h => ?_
  refine lt_of_le_of_ne ((Path.atMost_iff p q).1 h.2) fun hkey => h.1 ?_
  exact Path.sortKey_injective ((hbeside p hp).2.trans (hbeside q hq).2.symm) hkey

/-- Results that hold the same paths are one. -/
theorem files_eq_of_mem_iff (ht : t.root.Proper) (hroot : root.Rooted) {patterns' : List String}
    {out' : List Path} (hout : t.files root patterns exclude fallback = .ok out)
    (hout' : t.files root patterns' exclude fallback = .ok out') (h : ∀ p, p ∈ out ↔ p ∈ out') :
    out = out' := by
  have : Std.Irrefl fun p q : Path => p.sortKey < q.sortKey := ⟨fun p => lt_irrefl p.sortKey⟩
  have : Std.Asymm fun p q : Path => p.sortKey < q.sortKey := ⟨fun p q => lt_asymm⟩
  exact (pairwise_lt_of_files ht hroot hout).eq_of_mem_iff (pairwise_lt_of_files ht hroot hout') h

/-- Patterns of which no line takes back what others match, and fewer of them. -/
theorem Unmarked.of_subset {patterns' : List String} (h : t.Unmarked root patterns)
    (hplan : ∃ r, t.plan root patterns = .ok r) (hsub : patterns' ⊆ patterns) : t.Unmarked root patterns' := by
  intro r' hr' line hline
  obtain ⟨r, hr⟩ := hplan
  rw [(plan_spec hr').1, mem_lines_flatMap] at hline
  obtain ⟨pattern, hpattern, hline⟩ := hline
  refine h r hr line ?_
  rw [(plan_spec hr).1, mem_lines_flatMap]
  exact ⟨pattern, hsub hpattern, hline⟩

theorem asked_of_ne_nil (h : patterns ≠ []) (fallback : List String) : asked patterns fallback = patterns := by
  rw [asked, if_neg (by simpa using h)]

/-- **The same patterns** in another order, or with some repeated, find the same files. -/
theorem files_of_mem_iff (ht : t.root.Proper) (hroot : root.Rooted) {patterns' : List String}
    (hsame : ∀ pattern, pattern ∈ patterns ↔ pattern ∈ patterns') (hne : patterns ≠ [])
    (hmarks : t.Unmarked root patterns) (hout : t.files root patterns exclude fallback = .ok out) :
    t.files root patterns' exclude fallback = .ok out := by
  have hne' : patterns' ≠ [] := by
    obtain ⟨pattern, hpattern⟩ := List.exists_mem_of_ne_nil _ hne
    exact List.ne_nil_of_mem ((hsame pattern).1 hpattern)
  obtain ⟨⟨excluded, hex⟩, haccepts⟩ := exists_files_iff_each.1 ⟨out, hout⟩
  rw [asked_of_ne_nil hne] at haccepts
  obtain ⟨out', hout'⟩ : ∃ out', t.files root patterns' exclude fallback = .ok out' := by
    rw [exists_files_iff_each, asked_of_ne_nil hne']
    exact ⟨⟨excluded, hex⟩, fun pattern hpattern => haccepts pattern ((hsame pattern).2 hpattern)⟩
  obtain ⟨r, _, _, hr, -, -, -⟩ := files_eq_ok_iff.1 hout
  rw [asked_of_ne_nil hne] at hr
  have hmarks' : t.Unmarked root patterns' :=
    hmarks.of_subset ⟨r, hr⟩ fun pattern hpattern => (hsame pattern).2 hpattern
  rw [← asked_of_ne_nil hne fallback] at hmarks
  rw [← asked_of_ne_nil hne' fallback] at hmarks'
  rw [hout', files_eq_of_mem_iff ht hroot hout' hout]
  intro f
  rw [mem_files_iff ht.wellNamed hmarks' hex hout', mem_files_iff ht.wellNamed hmarks hex hout,
    asked_of_ne_nil hne, asked_of_ne_nil hne']
  exact exists_congr fun pattern => and_congr_left fun _ => (hsame pattern).symm

/-- **Lists of patterns act as a union.** Whatever is asked for, the result is in strict order and made
of absolute paths. Two lists together have a result exactly when each of them has, and where no line
of their globs starts with `!` it holds the files that the one or the other finds. So the order of the
patterns does not matter, and neither does how often one is repeated. -/
theorem files_append_union (t : Tree) (root : Path) (exclude fallback : List String) (ht : t.root.Proper)
    (hroot : root.Rooted) :
    (∀ patterns out, t.files root patterns exclude fallback = .ok out →
      out.Pairwise (fun p q => p.sortKey < q.sortKey) ∧ ∀ p ∈ out, p.isAbsolute = true) ∧
    (∀ ps qs, ps ≠ [] → qs ≠ [] → ((∃ out, t.files root (ps ++ qs) exclude fallback = .ok out) ↔
      (∃ out, t.files root ps exclude fallback = .ok out) ∧
        ∃ out, t.files root qs exclude fallback = .ok out)) ∧
    (∀ ps qs, ps ≠ [] → qs ≠ [] → t.Unmarked root (ps ++ qs) →
      ∀ found more, t.files root ps exclude fallback = .ok found →
        t.files root qs exclude fallback = .ok more →
        ∃ out, t.files root (ps ++ qs) exclude fallback = .ok out ∧ ∀ p, p ∈ out ↔ p ∈ found ∨ p ∈ more) ∧
    ∀ ps qs, ps ≠ [] → (∀ p, p ∈ ps ↔ p ∈ qs) → t.Unmarked root ps →
      ∀ out, t.files root ps exclude fallback = .ok out → t.files root qs exclude fallback = .ok out := by
  have hexists {ps qs : List String} (hps : ps ≠ []) (hqs : qs ≠ []) :
      (∃ out, t.files root (ps ++ qs) exclude fallback = .ok out) ↔
        (∃ out, t.files root ps exclude fallback = .ok out) ∧
          ∃ out, t.files root qs exclude fallback = .ok out := by
    rw [exists_files_iff_each, exists_files_iff_each, exists_files_iff_each, asked_of_ne_nil hps,
      asked_of_ne_nil hqs, asked_of_ne_nil (List.append_ne_nil_of_left_ne_nil hps qs),
      List.forall_mem_append, ← and_and_left]
  refine ⟨fun patterns out hout => ⟨pairwise_lt_of_files ht hroot hout, fun p hp => ?_⟩,
    fun ps qs hps hqs => hexists hps hqs, fun ps qs hps hqs hmarks found more hfound hmore => ?_,
    fun ps qs hps hsame hmarks out hout => files_of_mem_iff ht hroot hsame hps hmarks hout⟩
  · rw [Path.isAbsolute, bne_iff_ne]
    rcases (beside_of_mem_files ht hroot hout hp).1.slashes with h | h <;> omega
  · obtain ⟨out, hout⟩ := (hexists hps hqs).2 ⟨⟨found, hfound⟩, more, hmore⟩
    obtain ⟨r, excluded, -, hr, hex, -, -⟩ := files_eq_ok_iff.1 hout
    have hne := List.append_ne_nil_of_left_ne_nil hps qs
    rw [asked_of_ne_nil hne] at hr
    -- the lines of each list are among those of both
    have hof {patterns : List String} {f : Path} {out : List Path} (hne : patterns ≠ [])
        (hsub : patterns ⊆ ps ++ qs) (hout : t.files root patterns exclude fallback = .ok out) :
        f ∈ out ↔ ∃ pattern ∈ patterns, t.Finds root excluded pattern f := by
      have hfew := hmarks.of_subset ⟨r, hr⟩ hsub
      rw [← asked_of_ne_nil hne fallback] at hfew
      rw [mem_files_iff ht.wellNamed hfew hex hout, asked_of_ne_nil hne]
    refine ⟨out, hout, fun f => ?_⟩
    rw [hof hne (List.Subset.refl _) hout, hof hps (List.subset_append_left ps qs) hfound,
      hof hqs (List.subset_append_right ps qs) hmore]
    simp only [List.mem_append, or_and_right, exists_or]

/-- The hypotheses of `files_append_union` hold together: a glob and a path that overlap find their file
once, and so they do with another glob in whatever order. -/
theorem files_append_union_overlapping : Sample.tree.root.Proper ∧ Sample.project.Rooted ∧
    Sample.tree.Unmarked Sample.project (["src/_*"] ++ ["src/a.*", "src/a.ts"]) ∧
    Sample.tree.files Sample.project ["src/_*"] [] [] = .ok [⟨1, ["project", "src", "_b.ts"]⟩] ∧
    Sample.tree.files Sample.project ["src/a.*", "src/a.ts"] [] [] =
      .ok [⟨1, ["project", "src", "a.ts"]⟩] ∧
    ∃ out, Sample.tree.files Sample.project (["src/_*"] ++ ["src/a.*", "src/a.ts"]) [] [] = .ok out ∧
      (∀ p, p ∈ out ↔ p ∈ [(⟨1, ["project", "src", "_b.ts"]⟩ : Path)] ∨
        p ∈ [(⟨1, ["project", "src", "a.ts"]⟩ : Path)]) ∧
      out.Pairwise (fun p q => p.sortKey < q.sortKey) ∧
      Sample.tree.files Sample.project ["src/a.ts", "src/_*", "src/a.*", "src/a.ts"] [] [] = .ok out := by
  obtain ⟨hproper, -⟩ := Sample.tree_proper_and_plain
  obtain ⟨horder, -, hunion, hsame⟩ := files_append_union Sample.tree Sample.project [] [] hproper Sample.rooted
  have hmarks : Sample.tree.Unmarked Sample.project (["src/_*"] ++ ["src/a.*", "src/a.ts"]) := by
    intro r hr
    rw [(plan_spec hr).1]
    decide +kernel
  have hone : Sample.tree.files Sample.project ["src/_*"] [] [] =
      .ok [⟨1, ["project", "src", "_b.ts"]⟩] := by decide +kernel
  have htwo : Sample.tree.files Sample.project ["src/a.*", "src/a.ts"] [] [] =
      .ok [⟨1, ["project", "src", "a.ts"]⟩] := by decide +kernel
  obtain ⟨out, hout, hmem⟩ := hunion ["src/_*"] ["src/a.*", "src/a.ts"] (by decide) (by decide) hmarks _ _ hone
    htwo
  refine ⟨hproper, Sample.rooted, hmarks, hone, htwo, out, hout, hmem, (horder _ _ hout).1, ?_⟩
  refine hsame _ ["src/a.ts", "src/_*", "src/a.*", "src/a.ts"] (by decide) (fun p => ?_) hmarks _ hout
  simp only [List.cons_append, List.nil_append, List.mem_cons, List.not_mem_nil, or_false]
  tauto

end Tree
end LintMerge
