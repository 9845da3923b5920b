/-
# Asking for what was found

Files that were found are asked for once more, each by its path. A path is looked up before it
is searched for, so it names its file, whatever is excluded; and files in order stay in order.
So the same files are found again, unless a path is too long to be looked up.

But a path that holds a character of globs is not looked up at all: it is taken for a glob,
which need not match the file (`Tree.not_files_again`) and may match others. When the files of
such paths are found again, and nothing else, is said by `Tree.files_again_iff`, for every tree
of files and folders.
-/

import LintMerge.Proofs.Tree.Lookup

namespace LintMerge

namespace Path

/-- The root and the segments that a path is sorted by tell the path where the root is known. -/
theorem sortKey_injective {p q : Path} (hslashes : p.slashes = q.slashes) (h : p.sortKey = q.sortKey) :
    p = q := by
  obtain ⟨n, ss⟩ := p
  obtain ⟨m, ts⟩ := q
  obtain rfl : n = m := hslashes
  obtain rfl : ss = ts := List.append_cancel_left h
  rfl

end Path

namespace Tree

variable {t : Tree} {root : Path} {patterns exclude fallback : List String}

/-- A path that is taken for a glob, as it is seen from the root. -/
def asGlob (root f : Path) : Bool := hasGlob (root.key f.text)

/-- A path that has the root of a directory and is in normal form. -/
def Beside (root f : Path) : Prop := f.Rooted ∧ f.slashes = root.slashes

theorem Beside.seenFrom_text {f : Path} (hf : Beside root f) : seenFrom root f.text = root.key f.text := by
  rw [seenFrom, if_pos hf.1.isAbsoluteText]

theorem Beside.absolute_key {f : Path} (hroot : root.Rooted) (hf : Beside root f) :
    root.absolute (root.key f.text) = f := by
  have habsolute := hf.1.absolute_text root
  rw [Path.absolute_key hroot (by rw [habsolute]; exact hf.2), habsolute]

/-- A pattern has no root as it is seen from one. -/
theorem not_isAbsoluteText_seenFrom (root : Path) (pattern : String) :
    Path.isAbsoluteText (seenFrom root pattern) = false := by
  rw [seenFrom]
  split
  · exact Path.not_isAbsoluteText_key root pattern
  · next h => exact Bool.not_eq_true _ ▸ h

theorem beside_absolute (hroot : root.Rooted) {s : String} (hs : Path.isAbsoluteText s = false) :
    Beside root (root.absolute s) := by
  refine ⟨Path.rooted_absolute hroot s, ?_⟩
  rw [Path.absolute, Path.join, if_neg (by simp [Path.isAbsolute, Path.slashes_ofText_eq_zero hs])]

/-- What is found below a root lies beside it. -/
theorem Reached.beside (ht : t.root.Proper) (hroot : root.Rooted) {folders : List String} {file : String}
    (h : t.Reached root folders file) : Beside root (root.join (Path.ofText file)) := by
  refine ⟨(h.rooted ht hroot).1, ?_⟩
  rw [Path.ofText_regular (h.spec ht.wellNamed).1]
  rfl

/-- **What is found** lies beside the root. -/
theorem beside_of_mem_files (ht : t.root.Proper) (hroot : root.Rooted) {out : List Path}
    (hout : t.files root patterns exclude fallback = .ok out) {f : Path} (hf : f ∈ out) : Beside root f := by
  obtain ⟨r, excluded, wanted, hr, -, -, rfl⟩ := files_eq_ok_iff.1 hout
  rw [mem_inOrder, List.mem_append, (foldlM_request_spec t root (asked patterns fallback) {}).2 r hr] at hf
  rcases hf with (hnil | ⟨pattern, -, -, rfl, -⟩) | hf
  · exact absurd hnil List.not_mem_nil
  · exact beside_absolute hroot (not_isAbsoluteText_seenFrom root pattern)
  · obtain ⟨folders, file, hreached, -, -, -, rfl⟩ := (mem_matching ht.wellNamed).1 hf
    exact hreached.beside ht hroot

/-- What is found are files, unless their paths are too long to be looked up. -/
theorem spec_of_mem_files (ht : t.root.Proper) (hplain : t.root.Plain) (hroot : root.Rooted)
    {out : List Path} (hout : t.files root patterns exclude fallback = .ok out) {f : Path} (hf : f ∈ out) :
    Beside root f ∧ (t.isTooLong f = true ∨ t.isFile f = true) := by
  refine ⟨beside_of_mem_files ht hroot hout hf, ?_⟩
  obtain ⟨r, excluded, wanted, hr, -, -, rfl⟩ := files_eq_ok_iff.1 hout
  rw [mem_inOrder, List.mem_append, (foldlM_request_spec t root (asked patterns fallback) {}).2 r hr] at hf
  rcases hf with (hnil | ⟨pattern, -, -, rfl, hfile⟩) | hf
  · exact absurd hnil List.not_mem_nil
  · exact .inr hfile
  · obtain ⟨folders, file, hreached, -, -, -, rfl⟩ := (mem_matching ht.wellNamed).1 hf
    exact hreached.isFile ht hplain hroot

/-- **A path of a file as a pattern**: a glob, or a file, or too long. -/
theorem request_text (hroot : root.Rooted) {f : Path} (hf : Beside root f)
    (hfile : t.isTooLong f = true ∨ t.isFile f = true) (r : Request) :
    t.request root r f.text =
      if asGlob root f then .ok { r with globs := r.globs ++ [root.key f.text] }
      else if t.isTooLong f then .error (.tooLong f)
      else .ok { r with files := r.files ++ [f] } := by
  rw [request, hf.seenFrom_text, hf.absolute_key hroot]
  dsimp only
  rw [← asGlob]
  cases hlong : t.isTooLong f with
  | true => rfl
  | false =>
    have hisFile : t.isFile f = true := hfile.resolve_left (by rw [hlong]; exact Bool.false_ne_true)
    rw [isFolder_of_isFile hisFile, hisFile]
    rfl

/-- **Paths of files as patterns**: those that are globs, and the files of the others. -/
theorem foldlM_request_text (hroot : root.Rooted) {fs : List Path}
    (hfs : ∀ f ∈ fs, Beside root f ∧ (t.isTooLong f = true ∨ t.isFile f = true)) (r r' : Request) :
    (fs.map Path.text).foldlM (t.request root) r = .ok r' ↔
      (∀ f ∈ fs, asGlob root f = false → t.isTooLong f = false) ∧
      r' = { globs := r.globs ++ (fs.filter (asGlob root)).map fun f => root.key f.text
             files := r.files ++ fs.filter (!asGlob root ·) } := by
  induction fs generalizing r with
  | nil =>
    rw [List.map_nil, List.foldlM_nil, Faulty.pure_eq_ok, List.filter_nil, List.filter_nil, List.map_nil,
      List.append_nil, List.append_nil]
    exact ⟨fun h => ⟨fun _ hf => absurd hf List.not_mem_nil, h.symm⟩, fun h => h.2.symm⟩
  | cons f fs ih =>
    obtain ⟨hbeside, hfile⟩ := hfs f List.mem_cons_self
    have ih := ih fun g hg => hfs g (List.mem_cons_of_mem _ hg)
    rw [List.map_cons, List.foldlM_cons, request_text hroot hbeside hfile, List.forall_mem_cons]
    cases hglob : asGlob root f with
    | true =>
      rw [if_pos rfl]
      refine (ih _).trans ?_
      simp [hglob]
    | false =>
      rw [if_neg Bool.false_ne_true]
      cases hlong : t.isTooLong f with
      | true =>
        constructor
        · intro h
          cases h
        · rintro ⟨⟨h, -⟩, -⟩
          cases h rfl
      | false =>
        rw [if_neg Bool.false_ne_true]
        refine (ih _).trans ?_
        simp [hglob]

/-- Paths in order, each once and all with one root, are told by which they are. -/
theorem inOrder_eq {out ps : List Path} {n : Nat} (hnodup : out.Nodup)
    (hsorted : out.Pairwise (Path.atMost · ·)) (hout : ∀ p ∈ out, p.slashes = n)
    (hmem : ∀ p, p ∈ ps ↔ p ∈ out) : inOrder ps = out := by
  refine List.Perm.eq_of_pairwise (fun p q hp hq hpq hqp => ?_) (pairwise_inOrder ps) hsorted
    ((List.perm_ext_iff_of_nodup (nodup_inOrder ps) hnodup).2 fun p => mem_inOrder.trans (hmem p))
  rw [Path.atMost_iff] at hpq hqp
  refine Path.sortKey_injective ?_ (le_antisymm hpq hqp)
  rw [hout p ((hmem p).1 (mem_inOrder.1 hp)), hout q hq]

/-- Nothing is in the way of finding files again by their paths: none that is looked up is too long,
and those that are taken for globs match, of what is not excluded, their own files and no others. -/
def FoundAgain (t : Tree) (root : Path) (exclude : List String) (fs : List Path) : Prop :=
  (∀ f ∈ fs, asGlob root f = false → t.isTooLong f = false) ∧
  ∃ excluded wanted, Glob.Spec.build exclude = .ok excluded ∧
    Glob.Spec.build ((fs.filter (asGlob root)).map fun f => root.key f.text) = .ok wanted ∧
    (∀ f ∈ fs, asGlob root f = true → f ∈ t.matching root wanted excluded) ∧
    ∀ f ∈ t.matching root wanted excluded, f ∈ fs

/-- Files in order are found by their paths when the globs among these find their own files and no
other. -/
theorem files_text_iff (hroot : root.Rooted) {fs : List Path} (hne : fs ≠ [])
    (hfs : ∀ f ∈ fs, Beside root f ∧ (t.isTooLong f = true ∨ t.isFile f = true)) (hnodup : fs.Nodup)
    (hsorted : fs.Pairwise (Path.atMost · ·)) :
    t.files root (fs.map Path.text) exclude fallback = .ok fs ↔ FoundAgain t root exclude fs := by
  have hasked : asked (fs.map Path.text) fallback = fs.map Path.text := by
    rw [asked, if_neg (by simpa using hne)]
  simp only [files_eq_ok_iff, FoundAgain, hasked, plan, foldlM_request_text hroot hfs, List.nil_append]
  constructor
  · rintro ⟨_, excluded, wanted, ⟨hlong, rfl⟩, hex, hwanted, hmem⟩
    have hiff : ∀ f, f ∈ fs ↔ f ∈ fs.filter (!asGlob root ·) ++ t.matching root wanted excluded := by
      intro f
      have h : f ∈ inOrder (fs.filter (!asGlob root ·) ++ t.matching root wanted excluded) ↔
          f ∈ fs.filter (!asGlob root ·) ++ t.matching root wanted excluded := mem_inOrder
      dsimp only at hmem
      rwa [← hmem] at h
    refine ⟨hlong, excluded, wanted, hex, hwanted, fun f hf hglob => ?_, fun f hf =>
      (hiff f).2 (List.mem_append_right _ hf)⟩
    rcases List.mem_append.1 ((hiff f).1 hf) with h | h
    · rw [List.mem_filter, hglob] at h
      exact absurd h.2 Bool.false_ne_true
    · exact h
  · rintro ⟨hlong, excluded, wanted, hex, hwanted, hown, hothers⟩
    refine ⟨_, excluded, wanted, ⟨hlong, rfl⟩, hex, hwanted,
      (inOrder_eq hnodup hsorted (fun p hp => (hfs p hp).1.2) fun f => ?_).symm⟩
    rw [List.mem_append, List.mem_filter, Bool.not_eq_true']
    constructor
    · rintro (⟨hf, -⟩ | hf)
      · exact hf
      · exact hothers f hf
    · intro hf
      cases hglob : asGlob root f with
      | true => exact .inr (hown f hf hglob)
      | false => exact .inl ⟨hf, rfl⟩

/-- Files of which no path is a glob or too long are found again. -/
theorem foundAgain_of_plain {fs : List Path} {excluded : Glob.Spec}
    (hex : Glob.Spec.build exclude = .ok excluded)
    (hfs : ∀ f ∈ fs, asGlob root f = false ∧ t.isTooLong f = false) : FoundAgain t root exclude fs := by
  have hnone : fs.filter (asGlob root) = [] := by
    rw [List.filter_eq_nil_iff]
    intro f hf hglob
    rw [(hfs f hf).1] at hglob
    cases hglob
  refine ⟨fun f hf _ => (hfs f hf).2, excluded, ⟨[]⟩, hex, ?_, fun f hf hglob => ?_, fun f hf => ?_⟩
  · rw [hnone]
    rfl
  · rw [(hfs f hf).1] at hglob
    cases hglob
  · rw [matching_nil] at hf
    exact absurd hf List.not_mem_nil

/-- **Asking for what was found.** The paths of the files that were found, as patterns, find these
files again exactly when none of them that is looked up is too long, and the globs among them
match, of what is not excluded, their own files and nothing that was not found. This is so when no
path is a glob and none is too long; and then each file is also found by its path alone. -/
theorem files_again_iff (t : Tree) (root : Path) (patterns exclude fallback : List String)
    (ht : t.root.Proper) (hplain : t.root.Plain) (hroot : root.Rooted) (out : List Path)
    (hout : t.files root patterns exclude fallback = .ok out) (hne : out ≠ []) :
    (t.files root (out.map Path.text) exclude fallback = .ok out ↔ FoundAgain t root exclude out) ∧
    ((∀ f ∈ out, asGlob root f = false ∧ t.isTooLong f = false) →
      t.files root (out.map Path.text) exclude fallback = .ok out) ∧
    ∀ f ∈ out, asGlob root f = false → t.isTooLong f = false →
      t.files root [f.text] exclude fallback = .ok [f] := by
  have hspec : ∀ f ∈ out, Beside root f ∧ (t.isTooLong f = true ∨ t.isFile f = true) := fun f hf =>
    spec_of_mem_files ht hplain hroot hout hf
  obtain ⟨r, excluded, wanted, -, hex, -, hr⟩ := files_eq_ok_iff.1 hout
  have hiff : t.files root (out.map Path.text) exclude fallback = .ok out ↔ FoundAgain t root exclude out :=
    files_text_iff hroot hne hspec (hr ▸ nodup_inOrder _) (hr ▸ pairwise_inOrder _)
  refine ⟨hiff, fun hall => hiff.2 (foundAgain_of_plain hex hall), fun f hf hglob hlong => ?_⟩
  refine (files_text_iff hroot (List.cons_ne_nil f []) ?_ (List.pairwise_singleton _ f)
    (List.pairwise_singleton _ f)).2 (foundAgain_of_plain hex ?_)
  · simpa using hspec f hf
  · simpa using ⟨hglob, hlong⟩

namespace Sample

/-- A project with a file of which the name is a glob. -/
def routes : Tree where
  root := .folder [("project", .folder [("app", .folder [("[id].tsx", .file [] false)])])]

theorem rooted : project.Rooted := ⟨.inl rfl, by unfold Path.Written; decide, by decide⟩

/-- Folders in one another, the last of which holds files. -/
theorem proper_and_plain {project folder : String} {es : List (String × Node)}
    (hproject : Node.IsName project ∧ project ≠ "..") (hfolder : Node.IsName folder ∧ folder ≠ "..")
    (hnames : ∀ e ∈ es, Node.IsName e.1 ∧ e.1 ≠ "..") (hdistinct : (es.map (·.1)).Nodup)
    (hwhole : '\x00' ∉ project.toList ∧ '\x00' ∉ folder.toList ∧ ∀ e ∈ es, '\x00' ∉ e.1.toList)
    (hfiles : ∀ e ∈ es, ∃ content executable, e.2 = .file content executable) :
    (Node.folder [(project, .folder [(folder, .folder es)])]).Proper ∧
      (Node.folder [(project, .folder [(folder, .folder es)])]).Plain := by
  have hproper : (Node.folder es).Proper := by
    refine .folder hnames fun e he => ?_
    obtain ⟨content, executable, hfile⟩ := hfiles e he
    exact hfile ▸ .file
  have hplain : (Node.folder es).Plain := by
    refine .folder hdistinct hwhole.2.2 fun e he => ?_
    obtain ⟨content, executable, hfile⟩ := hfiles e he
    exact hfile ▸ .file
  constructor
  · refine .folder (by simpa using hproject) fun e he => ?_
    rw [List.mem_singleton.1 he]
    refine .folder (by simpa using hfolder) fun e he => ?_
    rw [List.mem_singleton.1 he]
    exact hproper
  · refine .folder (by simp) (by simpa using hwhole.1) fun e he => ?_
    rw [List.mem_singleton.1 he]
    refine .folder (by simp) (by simpa using hwhole.2.1) fun e he => ?_
    rw [List.mem_singleton.1 he]
    exact hplain

theorem tree_proper_and_plain : tree.root.Proper ∧ tree.root.Plain :=
  proper_and_plain (by decide) (by decide) (by decide) (by decide) (by decide) (by
    intro e he
    rcases List.mem_cons.1 he with rfl | he
    · exact ⟨_, _, rfl⟩
    · rw [List.mem_singleton.1 he]
      exact ⟨_, _, rfl⟩)

theorem routes_proper_and_plain : routes.root.Proper ∧ routes.root.Plain :=
  proper_and_plain (by decide) (by decide) (by decide) (by decide) (by decide) (by
    intro e he
    rw [List.mem_singleton.1 he]
    exact ⟨_, _, rfl⟩)

end Sample

/-- **The hypotheses of `files_again_iff` hold together**: what a glob finds is found again. -/
theorem files_again_iff_sample : Sample.tree.root.Proper ∧ Sample.tree.root.Plain ∧
    Sample.project.Rooted ∧
    Sample.tree.files Sample.project ["src/a.*"] [] [] = .ok [⟨1, ["project", "src", "a.ts"]⟩] ∧
    Sample.tree.files Sample.project ["/project/src/a.ts"] [] [] =
      .ok [⟨1, ["project", "src", "a.ts"]⟩] := by
  have hfound : Sample.tree.files Sample.project ["src/a.*"] [] [] =
      .ok [⟨1, ["project", "src", "a.ts"]⟩] := by decide +kernel
  obtain ⟨hproper, hplain⟩ := Sample.tree_proper_and_plain
  exact ⟨hproper, hplain, Sample.rooted, hfound,
    (files_again_iff _ _ _ _ _ hproper hplain Sample.rooted _ hfound (by decide)).2.1 (by decide +kernel)⟩

/-- **A file is not found by its path**: `app/[id].tsx` lies in the folder `app` and is found there,
but its path is a glob that does not match it. -/
theorem not_files_again : ¬ ∀ (t : Tree) (root : Path) (patterns exclude fallback : List String),
    t.root.Proper → t.root.Plain → root.Rooted →
    ∀ out, t.files root patterns exclude fallback = .ok out → out ≠ [] →
    t.files root (out.map Path.text) exclude fallback = .ok out := by
  intro h
  obtain ⟨hproper, hplain⟩ := Sample.routes_proper_and_plain
  have hagain := h Sample.routes Sample.project ["app"] [] [] hproper hplain Sample.rooted
    [⟨1, ["project", "app", "[id].tsx"]⟩] (by decide +kernel) (by decide)
  have hnone : Sample.routes.files Sample.project ["/project/app/[id].tsx"] [] [] = .ok [] := by
    decide +kernel
  cases hnone.symm.trans hagain

end Tree
end LintMerge
