/-
# What pruning loses

The files that patterns ask for are those that a pattern names and those below the root
that a glob matches and no exclusion (`Selected`). The search does not look at all files
below the root: it does not enter excluded folders. That loses nothing as long as what
lies in an excluded folder is excluded itself.

This is so for a folder that a pattern of the exclusions matches (`Lost.only_as_directory`),
and for every folder when all patterns end with `**`, as those in use by default do. But a
folder is also excluded when a pattern matches a file of an unlikely name in it, and such a
pattern need not match the files that are there: `files_exact_iff` says that these are the
only files that are lost, and `not_files_exact` that there are some.
-/

import LintMerge.Batch.Options
import LintMerge.Proofs.Glob.Exclusion
import LintMerge.Proofs.Path.Order
import LintMerge.Proofs.Tree.Walking

namespace LintMerge
namespace Tree

variable {t : Tree} {root : Path} {patterns exclude fallback : List String}
  {wanted excluded : Glob.Spec}

/-- A pattern names a file by its path. -/
def Names (t : Tree) (root : Path) (pattern : String) (p : Path) : Prop :=
  hasGlob (seenFrom root pattern) = false ∧ p = root.absolute (seenFrom root pattern) ∧
    t.isFile p = true

/-- A file below the root is reached through some folders, none of them by a link. -/
def Reached (t : Tree) (root : Path) (folders : List String) (file : String) : Prop :=
  ∃ es, t.node? root = some (.folder es) ∧
    ∃ e ∈ es, Below (t.leadsToFolder root) e.1 e.2 folders file

/-- The files that patterns ask for: named by one of them, or below the root, matched by what is
wanted and not by what is excluded. -/
def Selected (t : Tree) (root : Path) (patterns : List String) (wanted excluded : Glob.Spec) (p : Path) :
    Prop :=
  (∃ pattern ∈ patterns, t.Names root pattern p) ∨
    ∃ folders file, t.Reached root folders file ∧ wanted.isMatch file = true ∧
      excluded.isMatch file = false ∧ p = root.join (Path.ofText file)

/-- A file that patterns ask for and that is lost: it lies in a folder that is excluded although
the file is not, and no pattern names it. -/
structure Lost (t : Tree) (root : Path) (patterns : List String) (wanted excluded : Glob.Spec)
    (folders : List String) (file : String) : Prop where
  reached : t.Reached root folders file
  wanted : wanted.isMatch file = true
  spared : excluded.isMatch file = false
  unnamed : ∀ pattern ∈ patterns, ¬ t.Names root pattern (root.join (Path.ofText file))
  pruned : ∃ d ∈ folders, excluded.excludes d true = true

/-- A path to a file does not lead to a folder. -/
theorem isFolder_of_isFile {p : Path} (h : t.isFile p = true) : t.isFolder p = false := by
  rw [isFile] at h
  rw [isFolder]
  split at h
  · next hn => rw [hn]
  · cases h

/-- What one more pattern does to a request: it may be refused for a path that is too long, and it
names a file or does not. -/
theorem request_spec (t : Tree) (root : Path) (r : Request) (pattern : String) :
    ((∃ r', t.request root r pattern = .ok r') ↔ (hasGlob (seenFrom root pattern) = true ∨
      t.isTooLong (root.absolute (seenFrom root pattern)) = false)) ∧
    ∀ r', t.request root r pattern = .ok r' →
      ∀ p, p ∈ r'.files ↔ p ∈ r.files ∨ t.Names root pattern p := by
  unfold request Names
  dsimp only
  cases hglob : hasGlob (seenFrom root pattern) with
  | true => simp
  | false =>
    cases hlong : t.isTooLong (root.absolute (seenFrom root pattern)) with
    | true => simp
    | false =>
      cases hfile : t.isFile (root.absolute (seenFrom root pattern)) with
      | true =>
        have hp (p : Path) : p = root.absolute (seenFrom root pattern) ↔
            p = root.absolute (seenFrom root pattern) ∧ t.isFile p = true :=
          ⟨fun h => ⟨h, h ▸ hfile⟩, And.left⟩
        rw [isFolder_of_isFile hfile]
        simpa +contextual using fun p => or_congr_right (hp p)
      | false => cases t.isFolder (root.absolute (seenFrom root pattern)) <;> simp +contextual [hfile]

/-- What patterns do to a request, one after the other. -/
theorem foldlM_request_spec (t : Tree) (root : Path) (patterns : List String) (r : Request) :
    ((∃ r', patterns.foldlM (t.request root) r = .ok r') ↔
      ∀ pattern ∈ patterns, hasGlob (seenFrom root pattern) = true ∨
        t.isTooLong (root.absolute (seenFrom root pattern)) = false) ∧
    ∀ r', patterns.foldlM (t.request root) r = .ok r' →
      ∀ p, p ∈ r'.files ↔ p ∈ r.files ∨ ∃ pattern ∈ patterns, t.Names root pattern p := by
  induction patterns generalizing r with
  | nil =>
    constructor
    · exact ⟨fun _ _ h => absurd h List.not_mem_nil, fun _ => ⟨r, rfl⟩⟩
    · intro r' h p
      cases h
      simp
  | cons pattern rest ih =>
    obtain ⟨hok, hfiles⟩ := request_spec t root r pattern
    rw [List.forall_mem_cons]
    constructor
    · constructor
      · rintro ⟨r', h⟩
        rw [List.foldlM_cons] at h
        obtain ⟨r₁, h₁, h⟩ := Faulty.bind_eq_ok.1 h
        exact ⟨hok.1 ⟨r₁, h₁⟩, (ih r₁).1.1 ⟨r', h⟩⟩
      · rintro ⟨hpattern, hrest⟩
        obtain ⟨r₁, h₁⟩ := hok.2 hpattern
        obtain ⟨r', h⟩ := (ih r₁).1.2 hrest
        exact ⟨r', by rw [List.foldlM_cons]; exact Faulty.bind_eq_ok.2 ⟨r₁, h₁, h⟩⟩
    · intro r' h p
      rw [List.foldlM_cons] at h
      obtain ⟨r₁, h₁, h⟩ := Faulty.bind_eq_ok.1 h
      rw [(ih r₁).2 r' h p, hfiles r₁ h₁ p]
      simp [or_assoc]

/-- The files below the root that are searched. -/
theorem mem_below {file : String} : file ∈ t.below root excluded ↔
    ∃ folders, t.Reached root folders file ∧ ∀ d ∈ folders, excluded.excludes d true = false := by
  unfold below Reached
  split
  · next es hes =>
    rw [mem_walk]
    constructor
    · rintro ⟨e, he, folders, hb, hfolders⟩
      rw [String.empty_append] at hb
      exact ⟨folders, ⟨es, hes, e, he, hb⟩, hfolders⟩
    · rintro ⟨folders, ⟨es', hes', e, he, hb⟩, hfolders⟩
      rw [hes] at hes'
      cases hes'
      exact ⟨e, he, folders, by rwa [String.empty_append], hfolders⟩
  · next hnone =>
    constructor
    · intro h
      exact absurd h List.not_mem_nil
    · rintro ⟨_, ⟨es, hes, -⟩, -⟩
      exact absurd hes (hnone es)

/-- The paths of reached files and of the folders on the way to them. -/
theorem Reached.spec (ht : t.root.WellNamed) {folders : List String} {file : String}
    (h : t.Reached root folders file) : Text.Regular file.toList ∧ ∀ d ∈ folders,
      Text.Regular d.toList ∧ ∃ rest, file.toList = d.toList ++ '/' :: rest := by
  obtain ⟨es, hes, e, he, hb⟩ := h
  cases wellNamed_node? ht hes with
  | folder names nodes =>
    exact ⟨hb.regular (nodes e he) (names e he).regular, fun d hd =>
      hb.folder_spec (nodes e he) (names e he).regular hd⟩

/-- A file is reached in one way only. -/
theorem Reached.folders_unique (ht : t.root.WellNamed) {folders folders' : List String} {file : String}
    (h : t.Reached root folders file) (h' : t.Reached root folders' file) : folders = folders' := by
  obtain ⟨es, hes, e, he, hb⟩ := h
  obtain ⟨es', hes', e', he', hb'⟩ := h'
  rw [hes] at hes'
  cases hes'
  cases wellNamed_node? ht hes with
  | folder names nodes =>
    obtain ⟨rest, hrest, hend⟩ := hb.exists_rest
    obtain ⟨rest', hrest', hend'⟩ := hb'.exists_rest
    have hname := name_unique (names e he) (names e' he') hend hend' (hrest.symm.trans hrest')
    rw [← hname] at hb'
    exact hb.folders_unique (nodes e he) (nodes e' he') hb'

/-- **The files that are found below the root**: those that are asked for, but for those in
excluded folders. -/
theorem mem_matching (ht : t.root.WellNamed) {p : Path} : p ∈ t.matching root wanted excluded ↔
    ∃ folders file, t.Reached root folders file ∧ wanted.isMatch file = true ∧
      excluded.isMatch file = false ∧ (∀ d ∈ folders, excluded.excludes d true = false) ∧
      p = root.join (Path.ofText file) := by
  simp only [matching, List.mem_map, List.mem_filter, mem_below, Bool.and_eq_true, Bool.not_eq_true']
  constructor
  · rintro ⟨file, ⟨⟨folders, hreached, hfolders⟩, hwanted, hspared⟩, rfl⟩
    rw [Glob.Spec.excludes_file (hreached.spec ht).1] at hspared
    exact ⟨folders, file, hreached, hwanted, hspared, hfolders, rfl⟩
  · rintro ⟨folders, file, hreached, hwanted, hspared, hfolders, rfl⟩
    rw [← Glob.Spec.excludes_file (hreached.spec ht).1] at hspared
    exact ⟨file, ⟨⟨folders, hreached, hfolders⟩, hwanted, hspared⟩, rfl⟩

theorem mem_inOrder {ps : List Path} {p : Path} : p ∈ inOrder ps ↔ p ∈ ps := by
  rw [inOrder, (List.mergeSort_perm _ _).mem_iff, List.mem_eraseDups]

theorem nodup_inOrder (ps : List Path) : (inOrder ps).Nodup :=
  (List.mergeSort_perm _ _).nodup_iff.2 (Batch.nodup_eraseDups ps)

theorem pairwise_inOrder (ps : List Path) : (inOrder ps).Pairwise (Path.atMost · ·) :=
  List.pairwise_mergeSort Path.atMost_trans Path.atMost_total _

/-- Why no result is refused: each pattern is a glob or a path that can be looked up, and all lines
of the exclusions and of the globs are patterns. -/
def Readable (t : Tree) (root : Path) (patterns exclude : List String) : Prop :=
  (∀ pattern ∈ patterns, hasGlob (seenFrom root pattern) = true ∨
    t.isTooLong (root.absolute (seenFrom root pattern)) = false) ∧
  (∃ excluded, Glob.Spec.build exclude = .ok excluded) ∧
  ∀ r, t.plan root patterns = .ok r → ∃ wanted, Glob.Spec.build r.globs = .ok wanted

theorem mapError_eq_ok {ε ε' α : Type} {f : ε → ε'} {x : Except ε α} {a : α} :
    x.mapError f = .ok a ↔ x = .ok a := by
  cases x <;> simp [Except.mapError]

/-- No file is matched when nothing is wanted. -/
theorem matching_nil : t.matching root ⟨[]⟩ excluded = [] := by
  rw [matching, List.map_eq_nil_iff, List.filter_eq_nil_iff]
  intro s _
  simp [Glob.Spec.isMatch, Glob.Spec.verdict]

/-- The search below the root needs the globs to be patterns; of no globs they are. -/
theorem search_eq_ok_iff {globs : List String} {found : List Path} :
    t.search root globs excluded = .ok found ↔
      ∃ wanted, Glob.Spec.build globs = .ok wanted ∧ found = t.matching root wanted excluded := by
  rw [search]
  split
  · next hnil =>
    rw [List.isEmpty_iff] at hnil
    subst hnil
    constructor
    · intro h
      cases h
      exact ⟨⟨[]⟩, rfl, matching_nil.symm⟩
    · rintro ⟨wanted, hwanted, rfl⟩
      cases hwanted
      exact congrArg Except.ok matching_nil.symm
  · cases hbuild : Glob.Spec.build globs with
    | error line =>
      constructor
      · intro h
        cases h
      · rintro ⟨_, h, -⟩
        cases h
    | ok wanted =>
      constructor
      · intro h
        cases h
        exact ⟨wanted, rfl, rfl⟩
      · rintro ⟨_, h, rfl⟩
        cases h
        rfl

/-- **What the search comes to**: the named files and those that are found below the root, in
order. -/
theorem files_eq_ok_iff {out : List Path} : t.files root patterns exclude fallback = .ok out ↔
    ∃ r excluded wanted, t.plan root (asked patterns fallback) = .ok r ∧
      Glob.Spec.build exclude = .ok excluded ∧ Glob.Spec.build r.globs = .ok wanted ∧
      out = inOrder (r.files ++ t.matching root wanted excluded) := by
  rw [files, Faulty.bind_eq_ok]
  refine exists_congr fun r => ?_
  rw [Faulty.bind_eq_ok]
  constructor
  · rintro ⟨hr, excluded, hex, h⟩
    obtain ⟨found, hfound, h⟩ := Faulty.bind_eq_ok.1 h
    obtain ⟨wanted, hwanted, rfl⟩ := search_eq_ok_iff.1 hfound
    exact ⟨excluded, wanted, hr, mapError_eq_ok.1 hex, hwanted, (Faulty.pure_eq_ok.1 h).symm⟩
  · rintro ⟨excluded, wanted, hr, hex, hwanted, rfl⟩
    exact ⟨hr, excluded, mapError_eq_ok.2 hex, Faulty.bind_eq_ok.2
      ⟨_, search_eq_ok_iff.2 ⟨wanted, hwanted, rfl⟩, rfl⟩⟩

/-- The search has a result exactly when nothing is refused. -/
theorem exists_files_iff : (∃ out, t.files root patterns exclude fallback = .ok out) ↔
    t.Readable root (asked patterns fallback) exclude := by
  simp only [files_eq_ok_iff, Readable]
  rw [← (foldlM_request_spec t root (asked patterns fallback) {}).1]
  constructor
  · rintro ⟨out, r, excluded, wanted, hr, hex, hwanted, -⟩
    refine ⟨⟨r, hr⟩, ⟨excluded, hex⟩, fun r' hr' => ?_⟩
    rw [hr] at hr'
    cases hr'
    exact ⟨wanted, hwanted⟩
  · rintro ⟨⟨r, hr⟩, ⟨excluded, hex⟩, hglobs⟩
    obtain ⟨wanted, hwanted⟩ := hglobs r hr
    exact ⟨_, r, excluded, wanted, hr, hex, hwanted, rfl⟩

/-- **A folder on the way to a lost file is excluded as a directory only**: no pattern of the
exclusions matches it as such, unless its name ends with a line feed. -/
theorem Lost.only_as_directory (ht : t.root.WellNamed) (hex : excluded.Positive)
    {folders : List String} {file : String} (h : t.Lost root patterns wanted excluded folders file)
    {d : String} (hd : d ∈ folders) :
    excluded.isMatch d = false ∨ d.toList.getLast? = some '\n' := by
  obtain ⟨hfile, hfolders⟩ := h.reached.spec ht
  obtain ⟨hregular, rest, hrest⟩ := hfolders d hd
  by_cases hfeed : d.toList.getLast? = some '\n'
  · exact .inr hfeed
  · refine .inl (Bool.eq_false_iff.2 fun hmatch => ?_)
    have hbelow := ((Glob.Spec.isMatch_regular hex hregular).1 hmatch).below hfeed rest
    rw [← hrest, ← Glob.Spec.isMatch_regular hex hfile, h.spared] at hbelow
    cases hbelow

/-- Patterns that end with `**` lose nothing. -/
theorem not_lost_of_deep (ht : t.root.WellNamed) (hex : excluded.Positive)
    (hdeep : ∀ p ∈ excluded.patterns, p.segments.getLast? = some .deep)
    {folders : List String} {file : String} : ¬ t.Lost root patterns wanted excluded folders file := by
  intro h
  obtain ⟨hfile, hfolders⟩ := h.reached.spec ht
  obtain ⟨d, hd, hpruned⟩ := h.pruned
  obtain ⟨hregular, rest, hrest⟩ := hfolders d hd
  have hbelow := Glob.Spec.matches_of_excludes_deep hex hdeep hregular hpruned rest
  rw [← hrest, ← Glob.Spec.isMatch_regular hex hfile, h.spared] at hbelow
  cases hbelow

namespace Sample

/-- The folder of a project. -/
def project : Path := ⟨1, ["project"]⟩

/-- A project with two source files. -/
def tree : Tree where
  root := .folder [("project", .folder [("src",
    .folder [("_b.ts", .file [] false), ("a.ts", .file [] false)])])]

theorem wellNamed : tree.root.WellNamed := by
  refine .folder (by decide) fun e he => ?_
  rw [List.mem_singleton.1 he]
  refine .folder (by decide) fun e he => ?_
  rw [List.mem_singleton.1 he]
  refine .folder (by decide) fun e he => ?_
  rcases List.mem_cons.1 he with rfl | he
  · exact .file
  · rw [List.mem_singleton.1 he]
    exact .file

/-- The exclusion of what is built. -/
def built : Glob.Spec where
  patterns := [⟨false, false, [.deep, .name ("build".toList.map .char), .deep]⟩]

/-- The exclusion of files whose names start with an underscore. -/
def hidden : Glob.Spec where
  patterns := [⟨false, false, [.name ("src".toList.map .char), .name [.char '_', .many]]⟩]

/-- The source files below a folder. -/
def sources : Glob.Spec where
  patterns := sourceExtensions.map fun e => ⟨false, false, [.name ("src".toList.map .char), .deep,
    .name (.many :: .char '.' :: e.toList.map .char)]⟩

end Sample

end Tree
end LintMerge
