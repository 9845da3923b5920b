/-
# One path, spelled in several ways

A path of a file or of a folder can be spelled in several ways that all lead to it. A file that is
asked for is looked up, so its spelling does not matter. A folder is looked up as well, but what is
found in it is told by a glob, and this is made of the text as it stands. Where the text has a root
it is written anew first; where it has none and `..` is in it, `..` becomes a part of the glob,
which no path of a file has (`Tree.not_includes_of_up`), so nothing is found.

So folders of one path find the same when they are spelled without `..` or with a root, and nothing
otherwise (`Tree.files_of_spelling`). `src/../src` is a spelling of `src` that finds nothing
(`Tree.not_files_of_spelling`).
-/

import LintMerge.Proofs.Tree.Sources

namespace LintMerge
namespace Tree

open LintMerge.Path (Written onward parts ofText isAbsoluteText)

variable {t : Tree} {root : Path} {p q pattern file : String} {exclude fallback start : List String}

/-- A path lies below a directory or is it. -/
def Within (root target : Path) : Prop := target.slashes = root.slashes ∧ root.segments <+: target.segments

/-- A text of a path that has a root or no `..`. -/
def Direct (pattern : String) : Prop := isAbsoluteText pattern = true ∨ ".." ∉ (ofText pattern).segments

instance : DecidablePred Direct := fun pattern =>
  inferInstanceAs (Decidable (isAbsoluteText pattern = true ∨ ".." ∉ (ofText pattern).segments))

/-- **Below `..` nothing is matched**, for in a glob it is the name of a part. -/
theorem not_includes_of_up (hstart : Written start)
    (hchars : ∀ s ∈ start, '*' ∉ s.toList ∧ '\x7b' ∉ s.toList) (hup : ".." ∈ start)
    (hfile : ".." ∉ parts file) : ¬ Glob.Includes (onward start sourceGlob) file.toList := by
  rintro ⟨x, hx, p, hofLine, hnegated, hw⟩
  obtain ⟨e, he, rfl⟩ := (Glob.mem_expandBraces_sources fun s hs => (hchars s hs).2).1 hx
  obtain ⟨first, hfirst, hp⟩ :=
    Glob.segments_sourceLine hstart (fun s hs => (hchars s hs).1) he hofLine hnegated
  obtain ⟨c, r, hc, hpath, -⟩ := (Glob.weight?_isSome_of_extended hp).1 hw
  -- the part `..` is a segment of the pattern
  obtain ⟨before, after, rfl⟩ := List.append_of_mem hup
  rw [← List.singleton_append, List.map_append, List.map_append] at hfirst
  obtain ⟨lead, _, -, hrest, rfl⟩ := Glob.mapM_segment?_append.1 hfirst
  obtain ⟨up, rest, hup, -, rfl⟩ := Glob.mapM_segment?_append.1 hrest
  obtain rfl : [.name [.char '.', .char '.']] = up := Option.some.inj hup
  rw [List.append_assoc, List.append_assoc] at hc
  obtain ⟨a, b, d, rfl, ha, ⟨_, _, rfl, ⟨_, _, rfl, rfl, rfl⟩, rfl⟩, hd⟩ := Glob.exists_of_eats_steps hc
  have hne : d ≠ [] := Glob.ne_nil_of_eats_stepsAfter (by simp) (by simp) hd
  have hslash : (d ++ r).head? = some '/' := by
    rw [List.head?_append_of_ne_nil _ hne]
    exact (Glob.head?_of_eats_stepsAfter hd).resolve_left hne
  refine hfile ?_
  rw [parts, hpath, List.append_assoc, List.append_assoc]
  exact List.mem_map.2 ⟨['.', '.'], Text.mem_splitOn_of_cut ha (by decide) (.inr hslash), rfl⟩

theorem absolute_seenFrom (hroot : root.Rooted) (h : (root.absolute pattern).slashes = root.slashes) :
    root.absolute (seenFrom root pattern) = root.absolute pattern := by
  rw [seenFrom]
  split
  · exact Path.absolute_key hroot h
  · rfl

/-- What is read of a direct text leads from the directory to the path. -/
theorem Direct.segments_seenFrom (hroot : root.Rooted) (h : Direct pattern) {rest : List String}
    (hrest : (root.absolute pattern).segments = root.segments ++ rest) :
    (ofText (seenFrom root pattern)).segments = rest := by
  rw [seenFrom]
  split
  · rw [Path.ofText_key hroot, hrest]
    exact Path.relative_append root.segments rest
  · next habs =>
    have hrelative : isAbsoluteText pattern = false := Bool.not_eq_true _ ▸ habs
    rw [Path.absolute_of_straight hroot hrelative (h.resolve_left habs), Path.join,
      if_neg (by simp [Path.isAbsolute, Path.slashes_ofText_eq_zero hrelative])] at hrest
    exact List.append_cancel_left hrest

/-- One pattern alone. -/
theorem files_singleton_congr (h : t.request root {} p = t.request root {} q) :
    t.files root [p] exclude fallback = t.files root [q] exclude fallback := by
  have hplan : t.plan root [p] = t.plan root [q] := by
    simp only [plan, List.foldlM_cons, List.foldlM_nil, h]
  rw [files, files, asked_of_ne_nil (List.cons_ne_nil _ _), asked_of_ne_nil (List.cons_ne_nil _ _), hplan]

/-- **A folder as a pattern**: the glob of the source files below it. -/
theorem request_of_folder (hglob : hasGlob (seenFrom root pattern) = false)
    (hfolder : t.isFolder (root.absolute (seenFrom root pattern)) = true) (r : Request) :
    t.request root r pattern =
      .ok { r with globs := r.globs ++ [onward (ofText (seenFrom root pattern)).segments sourceGlob] } := by
  unfold request
  dsimp only
  rw [if_neg (Bool.eq_false_iff.1 hglob), if_neg (Bool.eq_false_iff.1 (isTooLong_of_isFolder hfolder)),
    if_pos hfolder, folderGlob_eq (not_isAbsoluteText_seenFrom root pattern)]

/-- **A file as a pattern**: the file. -/
theorem request_of_file (hglob : hasGlob (seenFrom root pattern) = false)
    (hfile : t.isFile (root.absolute (seenFrom root pattern)) = true) (r : Request) :
    t.request root r pattern = .ok { r with files := r.files ++ [root.absolute (seenFrom root pattern)] } := by
  unfold request
  dsimp only
  rw [if_neg (Bool.eq_false_iff.1 hglob), if_neg (Bool.eq_false_iff.1 (isTooLong_of_isFile hfile)),
    if_neg (Bool.eq_false_iff.1 (isFolder_of_isFile hfile)), if_pos hfile]

/-- A file that is named by its path is found, whatever is excluded. -/
theorem files_of_file {excluded : Glob.Spec} (hglob : hasGlob (seenFrom root pattern) = false)
    (hfile : t.isFile (root.absolute (seenFrom root pattern)) = true)
    (hex : Glob.Spec.build exclude = .ok excluded) :
    t.files root [pattern] exclude fallback = .ok [root.absolute (seenFrom root pattern)] := by
  have hplan : t.plan root [pattern] = .ok ⟨[], [root.absolute (seenFrom root pattern)]⟩ := by
    rw [plan, List.foldlM_cons, request_of_file hglob hfile]
    rfl
  rw [files_eq_ok_iff, asked_of_ne_nil (List.cons_ne_nil _ _)]
  refine ⟨_, excluded, ⟨[]⟩, hplan, hex, rfl, ?_⟩
  rw [matching_nil]
  simp [inOrder, List.eraseDups_cons]

/-- **A folder that is spelled with `..`** and without a root: nothing is found. -/
theorem files_eq_nil (ht : t.root.Proper) (hglob : hasGlob (seenFrom root pattern) = false)
    (hfolder : t.isFolder (root.absolute (seenFrom root pattern)) = true) (h : ¬ Direct pattern) {out : List Path}
    (hout : t.files root [pattern] exclude fallback = .ok out) : out = [] := by
  rw [Direct, not_or, not_not, Bool.not_eq_true] at h
  have hseen : seenFrom root pattern = pattern := if_neg (Bool.eq_false_iff.1 h.1)
  refine List.eq_nil_iff_forall_not_mem.2 fun f hf => ?_
  obtain ⟨_, hpattern, hasks⟩ := exists_asks_of_mem_files ht hout hf
  rw [asked_of_ne_nil (List.cons_ne_nil _ _), List.mem_singleton] at hpattern
  subst hpattern
  rcases hasks with ⟨-, rfl, hfile⟩ | ⟨folders, file, hreached, rfl, glob, hmem, hincludes⟩
  · rw [isFolder_of_isFile hfile] at hfolder
    cases hfolder
  · rw [globsOf_eq_onward hglob hfolder, List.mem_singleton] at hmem
    rw [hmem, hseen] at hincludes
    exact not_includes_of_up (Path.written_ofText _) (plain_of_hasGlob (hseen ▸ hglob)) h.2
      (hreached.straight ht) hincludes

/-- **One path, spelled in two ways**, below the root. If it is that of a file, both spellings find the
file, whatever is excluded. If it is that of a folder, both find the same when each of them has a root or
no `..`; a spelling without a root in which `..` occurs finds nothing. -/
theorem files_of_spelling (t : Tree) (root : Path) (exclude fallback : List String) (ht : t.root.Proper)
    (hroot : root.Rooted) (p q : String) (hp : hasGlob (seenFrom root p) = false)
    (hq : hasGlob (seenFrom root q) = false) (hwithin : Within root (root.absolute p))
    (hsame : root.absolute p = root.absolute q) :
    (t.isFile (root.absolute p) = true →
      t.files root [p] exclude fallback = t.files root [q] exclude fallback ∧
      ((∃ excluded, Glob.Spec.build exclude = .ok excluded) →
        t.files root [p] exclude fallback = .ok [root.absolute p])) ∧
    (t.isFolder (root.absolute p) = true →
      (Direct p → Direct q → t.files root [p] exclude fallback = t.files root [q] exclude fallback) ∧
      (¬ Direct p → ∀ out, t.files root [p] exclude fallback = .ok out → out = [])) := by
  obtain ⟨hslashes, rest, hrest⟩ := hwithin
  have hseen : root.absolute (seenFrom root p) = root.absolute p := absolute_seenFrom hroot hslashes
  have hseen' : root.absolute (seenFrom root q) = root.absolute p := by
    rw [absolute_seenFrom hroot (hsame ▸ hslashes), hsame]
  constructor
  · intro hfile
    have hp' : t.isFile (root.absolute (seenFrom root p)) = true := by rw [hseen, hfile]
    have hq' : t.isFile (root.absolute (seenFrom root q)) = true := by rw [hseen', hfile]
    constructor
    · apply files_singleton_congr
      rw [request_of_file hp hp', request_of_file hq hq', hseen, hseen']
    · rintro ⟨excluded, hex⟩
      rw [files_of_file hp hp' hex, hseen]
  · intro hfolder
    have hp' : t.isFolder (root.absolute (seenFrom root p)) = true := by rw [hseen, hfolder]
    have hq' : t.isFolder (root.absolute (seenFrom root q)) = true := by rw [hseen', hfolder]
    constructor
    · intro hdirect hdirect'
      apply files_singleton_congr
      rw [request_of_folder hp hp', request_of_folder hq hq', hdirect.segments_seenFrom hroot hrest.symm,
        hdirect'.segments_seenFrom hroot (hsame ▸ hrest.symm)]
    · intro hup out hout
      exact files_eq_nil ht hp hp' hup hout

/-- The hypotheses of `files_of_spelling` hold together: `./src/` and the path with its root find what
`src` finds, and the file is found by all of its spellings. -/
theorem files_of_spelling_sample : Sample.tree.root.Proper ∧ Sample.project.Rooted ∧
    Within Sample.project (Sample.project.absolute "src") ∧
    Sample.tree.files Sample.project ["src"] ["src/_b.ts"] [] = .ok [⟨1, ["project", "src", "a.ts"]⟩] ∧
    Sample.tree.files Sample.project ["./src/"] ["src/_b.ts"] [] = .ok [⟨1, ["project", "src", "a.ts"]⟩] ∧
    Sample.tree.files Sample.project ["/project//src"] ["src/_b.ts"] [] = .ok [⟨1, ["project", "src", "a.ts"]⟩] ∧
    ¬ Direct "src/../src" ∧
    (∀ out, Sample.tree.files Sample.project ["src/../src"] [] [] = .ok out → out = []) ∧
    Sample.tree.files Sample.project ["src/../src/a.ts"] ["src/a.ts"] [] =
      .ok [⟨1, ["project", "src", "a.ts"]⟩] := by
  obtain ⟨hproper, -⟩ := Sample.tree_proper_and_plain
  have hsrc : Within Sample.project (Sample.project.absolute "src") := ⟨rfl, ["src"], rfl⟩
  have hfile : Within Sample.project (Sample.project.absolute "src/../src/a.ts") := ⟨rfl, ["src", "a.ts"], rfl⟩
  have hfolder : Sample.tree.isFolder (Sample.project.absolute "src") = true := by decide +kernel
  have hfound : Sample.tree.files Sample.project ["src"] ["src/_b.ts"] [] =
      .ok [⟨1, ["project", "src", "a.ts"]⟩] := by decide +kernel
  have hspelled (exclude : List String) (p q : String) := files_of_spelling Sample.tree Sample.project exclude []
    hproper Sample.rooted p q
  have hdot := ((hspelled ["src/_b.ts"] "src" "./src/" (by decide) (by decide) hsrc (by decide +kernel)).2
    hfolder).1 (by decide) (by decide)
  have habs := ((hspelled ["src/_b.ts"] "src" "/project//src" (by decide) (by decide +kernel) hsrc
    (by decide +kernel)).2 hfolder).1 (by decide) (by decide)
  have hup := ((hspelled [] "src/../src" "src" (by decide) (by decide) ⟨rfl, ["src"], by decide +kernel⟩
    (by decide +kernel)).2 (by decide +kernel)).2 (by decide)
  have hnamed := ((hspelled ["src/a.ts"] "src/../src/a.ts" "src/a.ts" (by decide) (by decide) hfile
    (by decide +kernel)).1 (by decide +kernel)).2 ⟨_, rfl⟩
  refine ⟨hproper, Sample.rooted, hsrc, hfound, hdot ▸ hfound, habs ▸ hfound, by decide, hup, ?_⟩
  rw [hnamed]
  decide +kernel

/-- **A spelling of a folder finds nothing**: `src/../src` leads to `src`. -/
theorem not_files_of_spelling : ¬ ∀ (t : Tree) (root : Path) (exclude : List String) (p q : String),
    t.root.Proper → root.Rooted → hasGlob p = false → hasGlob q = false → Within root (root.absolute p) →
    (t.isFile (root.absolute p) = true ∨ t.isFolder (root.absolute p) = true) →
    root.absolute p = root.absolute q → t.files root [p] exclude [] = t.files root [q] exclude [] := by
  intro h
  have hsame := h Sample.tree Sample.project ["src/_b.ts"] "src/../src" "src" Sample.tree_proper_and_plain.1
    Sample.rooted (by decide) (by decide) ⟨rfl, ["src"], by decide +kernel⟩ (.inr (by decide +kernel))
    (by decide +kernel)
  have hnone : Sample.tree.files Sample.project ["src/../src"] ["src/_b.ts"] [] = .ok [] := by decide +kernel
  have hfound : Sample.tree.files Sample.project ["src"] ["src/_b.ts"] [] =
      .ok [⟨1, ["project", "src", "a.ts"]⟩] := by decide +kernel
  cases hnone.symm.trans (hsame.trans hfound)

end Tree
end LintMerge
