/-
# Findings in the files that were asked for

A linter that looks at a whole project is asked for some files, and of its findings those are
kept that lie in them. The files are found by the patterns of the request
(`Tree.files`), the findings are kept by the spelling of these patterns (`Issue.filter`), and
the two read a pattern differently. Both take globs alike; but for a file the search resolves
`..`, which the filter leaves as it stands, and for what is no file the search makes a glob of
the text, in which backslashes and white space at the end have a meaning of their own.

So a finding in a file that was asked for can be dropped (`Tree.not_mem_filter_of_mem_files`).
It is kept when the pattern that asked for the file is read alike by both (`Tree.Agrees`,
`Tree.mem_filter_of_mem_files`), as all patterns are that go straight to a file or to a folder.
-/

import LintMerge.Proofs.Glob.Literal
import LintMerge.Proofs.Issue.Requests
import LintMerge.Proofs.Tree.Repetition

namespace LintMerge

namespace Glob

/-- A glob has a line of which the pattern includes a path. -/
def Includes (glob : String) (path : List Char) : Prop :=
  ∃ x ∈ expandBraces glob, ∃ p, Pattern.ofLine (Spec.anchor x) = .ok (some p) ∧ p.negated = false ∧
    (p.weight? path).isSome = true

/-- What globs match is included by one of them. -/
theorem exists_includes {globs : List String} {spec : Spec} (h : Spec.build globs = .ok spec)
    {path : String} (hpath : Text.Regular path.toList) (hmatch : spec.isMatch path = true) :
    ∃ glob ∈ globs, Includes glob path.toList := by
  obtain ⟨p, hp, hnegated, hw⟩ := Spec.exists_of_isMatch hmatch
  obtain ⟨line, hline, hofLine⟩ := Spec.exists_line_of_mem_build h hp
  obtain ⟨glob, hglob, hline⟩ := List.mem_flatMap.1 hline
  obtain ⟨x, hx, rfl⟩ := List.mem_map.1 hline
  rw [Spec.trimPath_regular hpath] at hw
  exact ⟨glob, hglob, x, hx, p, hofLine, hnegated, hw⟩

/-- Text without characters of globs and backslashes is literal, and nothing in it is expanded. -/
theorem literal_of_hasGlob {s : String} (hglob : hasGlob s = false) {t : List Char}
    (ht : ∀ c ∈ t, c = '/' ∨ c ∈ s.toList) (hback : '\\' ∉ s.toList) :
    Literal t ∧ '\x7b' ∉ t := by
  rw [hasGlob_eq_false_iff] at hglob
  have hplain : ∀ c ∈ t, c ∉ "*?[]\x7b\x7d\\".toList := by
    intro c hc hmem
    rcases ht c hc with rfl | hc
    · exact absurd hmem (by decide)
    · have hmem' : c ∈ "*?[]\x7b\x7d".toList ++ ['\\'] := hmem
      rcases List.mem_append.1 hmem' with h | h
      · exact hglob c hc h
      · exact hback (List.mem_singleton.1 h ▸ hc)
  constructor
  · intro c hc
    have := hplain c hc
    refine ⟨?_, ?_, ?_, ?_⟩ <;> rintro rfl <;> exact absurd this (by decide)
  · intro h
    exact hplain _ h (by decide)

end Glob

namespace Tree

open LintMerge.Path (ofText isAbsoluteText)

variable {t : Tree} {root f : Path} {pattern seen file : String} {patterns exclude fallback : List String}

/-- The globs that a pattern comes to: itself, or that of the source files below a folder, or none
for a file. -/
def globsOf (t : Tree) (root : Path) (pattern : String) : List String :=
  let text := seenFrom root pattern
  if hasGlob text then [text]
  else if t.isFolder (root.absolute text) then [folderGlob text]
  else if t.isFile (root.absolute text) then []
  else [text]

theorem globsOf_of_folder (hglob : hasGlob (seenFrom root pattern) = false)
    (hfolder : t.isFolder (root.absolute (seenFrom root pattern)) = true) :
    t.globsOf root pattern = [folderGlob (seenFrom root pattern)] := by
  unfold globsOf
  dsimp only
  rw [if_neg (Bool.eq_false_iff.1 hglob), if_pos hfolder]

theorem globsOf_of_file (hglob : hasGlob (seenFrom root pattern) = false)
    (hfile : t.isFile (root.absolute (seenFrom root pattern)) = true) : t.globsOf root pattern = [] := by
  unfold globsOf
  dsimp only
  rw [if_neg (Bool.eq_false_iff.1 hglob), if_neg (Bool.eq_false_iff.1 (isFolder_of_isFile hfile)),
    if_pos hfile]

theorem globsOf_of_other (hglob : hasGlob (seenFrom root pattern) = false)
    (hfolder : t.isFolder (root.absolute (seenFrom root pattern)) = false)
    (hfile : t.isFile (root.absolute (seenFrom root pattern)) = false) :
    t.globsOf root pattern = [seenFrom root pattern] := by
  unfold globsOf
  dsimp only
  rw [if_neg (Bool.eq_false_iff.1 hglob), if_neg (Bool.eq_false_iff.1 hfolder),
    if_neg (Bool.eq_false_iff.1 hfile)]

theorem globs_of_request {r r' : Request} (h : t.request root r pattern = .ok r') :
    r'.globs = r.globs ++ t.globsOf root pattern := by
  unfold request at h
  unfold globsOf
  dsimp only at h ⊢
  split at h
  · next hglob =>
    cases h
    rw [if_pos hglob]
  · next hglob =>
    rw [if_neg hglob]
    split at h
    · cases h
    · split at h
      · next hfolder =>
        cases h
        rw [if_pos hfolder]
      · next hfolder =>
        rw [if_neg hfolder]
        split at h
        · next hfile =>
          cases h
          rw [if_pos hfile, List.append_nil]
        · next hfile =>
          cases h
          rw [if_neg hfile]

/-- The globs of a request are those of its patterns. -/
theorem globs_of_foldlM_request {r r' : Request} (h : patterns.foldlM (t.request root) r = .ok r') :
    r'.globs = r.globs ++ patterns.flatMap (t.globsOf root) := by
  induction patterns generalizing r with
  | nil =>
    cases h
    exact (List.append_nil _).symm
  | cons pattern rest ih =>
    rw [List.foldlM_cons] at h
    obtain ⟨r₁, h₁, h⟩ := Faulty.bind_eq_ok.1 h
    rw [ih h, globs_of_request h₁, List.flatMap_cons, List.append_assoc]

/-- A pattern asks for a file: it names the file, or one of its globs includes it. -/
def Asks (t : Tree) (root : Path) (pattern : String) (f : Path) : Prop :=
  t.Names root pattern f ∨ ∃ folders file, t.Reached root folders file ∧
    f = root.join (ofText file) ∧ ∃ glob ∈ t.globsOf root pattern, Glob.Includes glob file.toList

/-- **What is found was asked for** by one of the patterns. -/
theorem exists_asks_of_mem_files (ht : t.root.Proper) {out : List Path}
    (hout : t.files root patterns exclude fallback = .ok out) (hf : f ∈ out) :
    ∃ pattern ∈ asked patterns fallback, t.Asks root pattern f := by
  obtain ⟨r, excluded, wanted, hr, -, hwanted, rfl⟩ := files_eq_ok_iff.1 hout
  rw [mem_inOrder, List.mem_append, (foldlM_request_spec t root (asked patterns fallback) {}).2 r hr] at hf
  rcases hf with (hnil | ⟨pattern, hpattern, hnames⟩) | hf
  · exact absurd hnil List.not_mem_nil
  · exact ⟨pattern, hpattern, .inl hnames⟩
  · obtain ⟨folders, file, hreached, hmatch, -, -, rfl⟩ := (mem_matching ht.wellNamed).1 hf
    obtain ⟨glob, hglob, hincludes⟩ :=
      Glob.exists_includes hwanted (hreached.spec ht.wellNamed).1 hmatch
    rw [globs_of_foldlM_request hr] at hglob
    obtain ⟨pattern, hpattern, hglob⟩ := List.mem_flatMap.1 hglob
    exact ⟨pattern, hpattern, .inr ⟨folders, file, hreached, rfl, glob, hglob, hincludes⟩⟩

/-- The key of a file that a pattern names is that of the pattern. -/
theorem key_of_names (hroot : root.Rooted) (h : t.Names root pattern f) :
    root.key f.text = root.key pattern := by
  obtain ⟨-, rfl, -⟩ := h
  have hseen : root.key (seenFrom root pattern) = root.key pattern := by
    rw [seenFrom]
    split
    · exact Path.key_key hroot pattern
    · rfl
  rw [← hseen]
  exact Path.key_congr hroot ((Path.rooted_absolute hroot _).absolute_text root)

/-- A pattern that is no glob is none as it is seen from the root. -/
theorem hasGlob_seenFrom (root : Path) (h : hasGlob pattern = false) :
    hasGlob (seenFrom root pattern) = false := by
  rw [hasGlob_eq_false_iff] at h ⊢
  intro c hc
  rw [seenFrom] at hc
  split at hc
  · rcases Path.mem_key hc with rfl | rfl | hc
    · decide
    · decide
    · exact h c hc
  · exact h c hc

/-- What the glob of source files stands for. -/
theorem expandBraces_sourceGlob :
    Glob.expandBraces sourceGlob = sourceExtensions.map fun extension => "**/*." ++ extension := by
  decide +kernel

theorem not_blank_of_mem_expandBraces_sourceGlob {y : String} (hy : y ∈ Glob.expandBraces sourceGlob) :
    ∀ c ∈ y.toList.getLast?, Text.isBlank c = false := by
  have hlast : ∀ y ∈ Glob.expandBraces sourceGlob, y.toList.getLast? = some 's' ∨
      y.toList.getLast? = some 'x' := by
    rw [expandBraces_sourceGlob]
    decide
  intro c hc
  rcases hlast y hy with h | h <;> rw [h] at hc <;> cases hc <;> decide

/-- **The glob of the source files below a folder** goes on from what is read of the text. -/
theorem folderGlob_eq (hseen : isAbsoluteText seen = false) :
    folderGlob seen = Path.onward (ofText seen).segments sourceGlob := by
  have hofText : ofText seen = ⟨0, (ofText seen).segments⟩ := by rw [← Path.slashes_ofText_eq_zero hseen]
  unfold folderGlob Path.onward
  by_cases hnil : (ofText seen).segments = []
  · rw [hofText, hnil]
    rfl
  · have hregular := Path.regular_joined (Path.written_ofText seen) hnil
    rw [if_neg hnil, hofText, Path.text_of_ne_nil hnil]
    generalize Path.joined (ofText seen).segments = start at hregular ⊢
    have hdot : start ≠ "." := by
      rintro rfl
      exact (hregular ['.'] (by decide)).2 rfl
    rw [Issue.dropSlashes_regular hregular, String.ofList_toList]
    exact if_neg fun h => h.elim (mt String.toList_eq_nil_iff.2 hregular.ne_nil) hdot

/-- **The source files below a folder** that a text names lie below what is read of the text. -/
theorem isUnder_of_folderGlob (hseen : isAbsoluteText seen = false) (hglob : hasGlob seen = false)
    (hback : '\\' ∉ seen.toList) (h : Glob.Includes (folderGlob seen) file.toList) :
    Path.text ⟨0, (ofText seen).segments⟩ = "." ∨
      Issue.isUnder (Glyph.ofString file)
        (Glyph.ofString (Path.text ⟨0, (ofText seen).segments⟩)) = true := by
  by_cases hnil : (ofText seen).segments = []
  · rw [hnil]
    exact .inl rfl
  have hregular := Path.regular_joined (Path.written_ofText seen) hnil
  rw [folderGlob_eq hseen, Path.onward, if_neg hnil] at h
  rw [Path.text_of_ne_nil hnil]
  refine .inr ?_
  generalize hstart : Path.joined (ofText seen).segments = start at hregular h ⊢
  have hne : start ≠ "" := mt String.toList_eq_nil_iff.2 hregular.ne_nil
  have hchars : ∀ c ∈ start.toList, c = '/' ∨ c ∈ seen.toList := by
    intro c hc
    rw [← hstart] at hc
    rcases Path.mem_joined hc with h | ⟨segment, hsegment, hc⟩
    · exact .inl h
    · exact .inr (Path.subset_of_mem_ofText hsegment hc)
  obtain ⟨hliteral, hbrace⟩ := Glob.literal_of_hasGlob hglob hchars hback
  obtain ⟨x, hx, p, hofLine, hnegated, hw⟩ := h
  have hbraceSlash : '\x7b' ∉ (start ++ "/").toList := by
    rw [String.toList_append, List.mem_append, not_or]
    exact ⟨hbrace, by decide⟩
  obtain ⟨y, hy, rfl⟩ := (Glob.mem_expandBraces_append hbraceSlash).1 hx
  obtain ⟨rest, hrest⟩ := Glob.Pattern.below_of_weight? hliteral hregular.head?_ne hne
    (not_blank_of_mem_expandBraces_sourceGlob hy) hofLine hnegated hw
  exact Issue.isUnder_of_toList hrest

/-- **What a text without wildcards matches** lies at what is read of the text or below it, when the
text does not end with white space, but for a line feed at the end of the path. -/
theorem isUnder_of_glob (hseen : isAbsoluteText seen = false) (hglob : hasGlob seen = false)
    (hback : '\\' ∉ seen.toList) (hlast : ∀ c ∈ seen.toList.getLast?, Text.isBlank c = false)
    (hfile : Text.Regular file.toList) (hfeed : file.toList.getLast? ≠ some '\n')
    (h : Glob.Includes seen file.toList) :
    Issue.Unrooted seen ∧ Issue.isUnder (Glyph.ofString file)
        (Glyph.ofString (Path.text ⟨0, (ofText seen).segments⟩)) = true := by
  obtain ⟨hliteral, hbrace⟩ := Glob.literal_of_hasGlob hglob (fun c hc => .inr hc) hback
  obtain ⟨x, hx, p, hofLine, hnegated, hw⟩ := h
  rw [Glob.expandBraces_of_not_mem hbrace, List.mem_singleton] at hx
  subst hx
  rw [isAbsoluteText, decide_eq_false_iff_not] at hseen
  obtain ⟨s, hs, hunder⟩ := Glob.Pattern.start_of_literal hliteral hseen hlast hofLine hnegated hw hfeed
  have hregular : Text.Regular s.toList := by
    rcases hunder with h | ⟨rest, h⟩ <;> rw [h] at hfile
    · exact hfile
    · exact hfile.left
  obtain ⟨hunrooted, htext⟩ := Issue.text_of_regular_slash hregular hs
  rw [htext]
  rcases hunder with h | ⟨rest, h⟩
  · exact ⟨hunrooted, Issue.isUnder_iff.2 (.inl (congrArg Glyph.ofChars h))⟩
  · exact ⟨hunrooted, Issue.isUnder_of_toList h⟩

/-- A pattern that is read alike where files are found and where findings are kept. -/
inductive Agrees (t : Tree) (root : Path) (pattern : String) (f : Path) : Prop where
  /-- a glob, for which all findings are kept -/
  | glob (hglob : hasGlob pattern = true)
  /-- the file's own path, compared by its key -/
  | named (hnames : t.Names root pattern f)
      (hrequest : Issue.requested (some root) pattern = root.key pattern)
  /-- a folder -/
  | folder (hfolder : t.isFolder (root.absolute (seenFrom root pattern)) = true)
      (hback : '\\' ∉ (seenFrom root pattern).toList) (hunrooted : Issue.Unrooted (seenFrom root pattern))
  /-- neither a folder nor a file; such a text matches links that lead nowhere -/
  | other (hfile : t.isFile (root.absolute (seenFrom root pattern)) = false)
      (hfolder : t.isFolder (root.absolute (seenFrom root pattern)) = false)
      (hback : '\\' ∉ (seenFrom root pattern).toList)
      (hlast : ∀ c ∈ (seenFrom root pattern).toList.getLast?, Text.isBlank c = false)
      (hfeed : (root.key f.text).toList.getLast? ≠ some '\n')

/-- **A finding in a file that was asked for is kept** when the pattern is read alike by both. -/
theorem mem_filter_of_asks (ht : t.root.Proper) (hroot : root.Rooted) (hpattern : pattern ∈ patterns)
    (hasks : t.Asks root pattern f) (hagrees : t.Agrees root pattern f) {issues : List Issue} {i : Issue}
    (hi : i ∈ issues) (hpath : i.spelling = Glyph.ofString (root.key f.text)) :
    i ∈ Issue.filter issues patterns (some root) := by
  by_cases hglob : hasGlob pattern = true
  · rwa [Issue.filter_of_hasGlob hpattern hglob]
  have hplain := hasGlob_seenFrom root (Bool.eq_false_iff.2 hglob)
  have hseen := not_isAbsoluteText_seenFrom root pattern
  cases hagrees with
  | glob h => exact absurd h hglob
  | named hnames hrequest =>
    refine Issue.mem_filter_of_request hi hpattern (.inr (Issue.isUnder_iff.2 (.inl ?_)))
    rw [hpath, hrequest, key_of_names hroot hnames]
  | folder hfolder hback hunrooted =>
    rcases hasks with ⟨-, rfl, hfile⟩ | ⟨folders, file, hreached, rfl, glob, hmem, hincludes⟩
    · rw [isFolder_of_isFile hfile] at hfolder
      cases hfolder
    · rw [globsOf_of_folder hplain hfolder, List.mem_singleton] at hmem
      rw [hmem] at hincludes
      have hunder := isUnder_of_folderGlob hseen hplain hback hincludes
      rw [← Issue.requested_of_unrooted hunrooted, ← (hreached.rooted ht hroot).2, ← hpath] at hunder
      exact Issue.mem_filter_of_request hi hpattern hunder
  | other hfile hfolder hback hlast hfeed =>
    rcases hasks with ⟨-, rfl, hisFile⟩ | ⟨folders, file, hreached, rfl, glob, hmem, hincludes⟩
    · rw [hisFile] at hfile
      cases hfile
    · rw [(hreached.rooted ht hroot).2] at hfeed hpath
      rw [globsOf_of_other hplain hfolder hfile, List.mem_singleton] at hmem
      rw [hmem] at hincludes
      obtain ⟨hunrooted, hunder⟩ :=
        isUnder_of_glob hseen hplain hback hlast (hreached.spec ht.wellNamed).1 hfeed hincludes
      rw [← Issue.requested_of_unrooted hunrooted, ← hpath] at hunder
      exact Issue.mem_filter_of_request hi hpattern (.inr hunder)

/-- A pattern that is a glob, or that goes straight to a file or, without backslashes, to a folder. -/
def WellSpelled (t : Tree) (root : Path) (pattern : String) : Prop :=
  hasGlob pattern = true ∨ Issue.Straight pattern ∧
    (t.isFile (root.absolute (seenFrom root pattern)) = true ∨
      t.isFolder (root.absolute (seenFrom root pattern)) = true ∧ '\\' ∉ (seenFrom root pattern).toList)

theorem WellSpelled.agrees (hroot : root.Rooted) (h : t.WellSpelled root pattern)
    (hasks : t.Asks root pattern f) : t.Agrees root pattern f := by
  by_cases hglob : hasGlob pattern = true
  · exact .glob hglob
  obtain ⟨hstraight, hfile | ⟨hfolder, hback⟩⟩ := h.resolve_left hglob
  · have hplain := hasGlob_seenFrom root (Bool.eq_false_iff.2 hglob)
    rcases hasks with hnames | ⟨folders, file, hreached, rfl, glob, hmem, hincludes⟩
    · exact .named hnames (Issue.requested_eq_key hroot hstraight)
    · rw [globsOf_of_file hplain hfile] at hmem
      exact absurd hmem List.not_mem_nil
  · exact .folder hfolder hback (hstraight.unrooted hroot)

/-- **Findings in the files that were asked for.** Each file that is found was asked for by one of the
patterns, and if the pattern is read alike where files are found and where findings are kept, the
findings in the file are kept. For a pattern that names the file they are kept by it exactly when it
is compared by its key. And no finding is dropped when all patterns are globs or go straight to a
file or a folder. -/
theorem mem_filter_of_mem_files (t : Tree) (root : Path) (patterns exclude fallback : List String)
    (ht : t.root.Proper) (hroot : root.Rooted) (hne : patterns ≠ []) (out : List Path)
    (hout : t.files root patterns exclude fallback = .ok out) :
    (∀ f ∈ out, ∃ pattern ∈ patterns, t.Asks root pattern f) ∧
    (∀ f, ∀ pattern ∈ patterns, t.Asks root pattern f → t.Agrees root pattern f →
      ∀ (issues : List Issue), ∀ i ∈ issues, i.spelling = Glyph.ofString (root.key f.text) →
        i ∈ Issue.filter issues patterns (some root)) ∧
    (∀ f, ∀ pattern ∈ patterns, t.Names root pattern f →
      ∀ i : Issue, i.spelling = Glyph.ofString (root.key f.text) →
      (i ∈ Issue.filter [i] [pattern] (some root) ↔
        Issue.requested (some root) pattern = root.key pattern)) ∧
    ((∀ pattern ∈ patterns, t.WellSpelled root pattern) →
      ∀ f ∈ out, ∀ (issues : List Issue), ∀ i ∈ issues, i.spelling = Glyph.ofString (root.key f.text) →
        i ∈ Issue.filter issues patterns (some root)) := by
  have hasked : asked patterns fallback = patterns := by
    rw [asked, if_neg (by simpa using hne)]
  have hasks : ∀ f ∈ out, ∃ pattern ∈ patterns, t.Asks root pattern f := fun f hf =>
    hasked ▸ exists_asks_of_mem_files ht hout hf
  refine ⟨hasks, fun f pattern hpattern hasksF hagrees issues i hi hpath =>
    mem_filter_of_asks ht hroot hpattern hasksF hagrees hi hpath,
    fun f pattern _ hnames i hpath => ?_, fun hspelled f hf issues i hi hpath => ?_⟩
  · exact Issue.mem_filter_self_iff hroot hnames.1 (key_of_names hroot hnames ▸ hpath)
  · obtain ⟨pattern, hpattern, hasksF⟩ := hasks f hf
    exact mem_filter_of_asks ht hroot hpattern hasksF ((hspelled pattern hpattern).agrees hroot hasksF) hi
      hpath

namespace Sample

/-- A finding in a source file of `tree`. -/
def finding : Issue where
  path := "src/a.ts"
  span := ⟨7, 5, 7, 9, by decide, by decide, by decide, by decide⟩
  severity := .error
  ruleId := "tsc/TS2322"
  message := "Type 'string' is not assignable to type 'number'."
  source := .tsc
  fix := none
  about := none
  isPath := by unfold Issue.IsPath; decide
  ruleId_ne := by decide

end Sample

/-- **The hypotheses of `mem_filter_of_mem_files` hold together**, and a finding below a folder that
was asked for is kept. -/
theorem mem_filter_of_mem_files_sample : Sample.tree.root.Proper ∧ Sample.project.Rooted ∧
    Sample.tree.files Sample.project ["./src/"] ["src/_b.ts"] [] =
      .ok [⟨1, ["project", "src", "a.ts"]⟩] ∧
    Sample.finding ∈ Issue.filter [Sample.finding] ["./src/"] (some Sample.project) := by
  have hfound : Sample.tree.files Sample.project ["./src/"] ["src/_b.ts"] [] =
      .ok [⟨1, ["project", "src", "a.ts"]⟩] := by decide +kernel
  have hspelled : Sample.tree.WellSpelled Sample.project "./src/" :=
    .inr ⟨.inr ⟨by decide, by unfold Issue.Unrooted; decide⟩, .inr ⟨by decide +kernel, by decide⟩⟩
  obtain ⟨hproper, -⟩ := Sample.tree_proper_and_plain
  exact ⟨hproper, Sample.rooted, hfound,
    (mem_filter_of_mem_files _ _ _ _ _ hproper Sample.rooted (by decide) _ hfound).2.2.2
      (by simpa using hspelled) _ (List.mem_singleton_self _) _ _ (List.mem_singleton_self _)
      (by decide +kernel)⟩

/-- **A finding in a file that was asked for is dropped**: the search resolves `src/../src/a.ts`, which
the filter compares as it stands. -/
theorem not_mem_filter_of_mem_files : ¬ ∀ (t : Tree) (root : Path) (patterns exclude fallback : List String),
    t.root.Proper → root.Rooted → patterns ≠ [] →
    ∀ out, t.files root patterns exclude fallback = .ok out →
    ∀ f ∈ out, ∀ (issues : List Issue), ∀ i ∈ issues, i.spelling = Glyph.ofString (root.key f.text) →
      i ∈ Issue.filter issues patterns (some root) := by
  intro h
  have hkept := h Sample.tree Sample.project ["src/../src/a.ts"] [] [] Sample.tree_proper_and_plain.1
    Sample.rooted (by decide) [⟨1, ["project", "src", "a.ts"]⟩] (by decide +kernel) _
    (List.mem_singleton_self _) [Sample.finding] _ (List.mem_singleton_self _) (by decide +kernel)
  have hnone : Issue.filter [Sample.finding] ["src/../src/a.ts"] (some Sample.project) = [] := by
    decide +kernel
  rw [hnone] at hkept
  exact List.not_mem_nil hkept

end Tree
end LintMerge
