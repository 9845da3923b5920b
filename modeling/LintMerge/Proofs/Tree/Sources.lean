/-
# The source files below a folder

The path of a folder asks for the source files below it, and without patterns those below the root
are asked for. But what is found for this need not be a source file: it is enough that a folder
below, in which it lies, is named like one (`Tree.HasSourceName`). So in a folder `pkg.ts` every
file is found (`Tree.not_isSource_of_files`). Of the files that are not excluded exactly those are
found that go through such a name (`Tree.sources_of_files`), when the text of the folder can stand
in a glob as it is.
-/

import LintMerge.Config.Settings
import LintMerge.Proofs.Glob.Sources
import LintMerge.Proofs.Tree.Union

namespace LintMerge
namespace Tree

open Glob (IsSource GoesThrough)
open LintMerge.Path (Written onward joined parts ofText)

variable {t : Tree} {root f : Path} {pattern : String} {patterns exclude fallback start : List String}
  {excluded : Glob.Spec}

/-- A pattern that asks for source files: the glob of these, or a path of a folder. -/
def AsksForSources (t : Tree) (root : Path) (pattern : String) : Prop :=
  pattern = sourceGlob ∨
    hasGlob (seenFrom root pattern) = false ∧ t.isFolder (root.absolute (seenFrom root pattern)) = true

/-- The name of a file or of a folder that it lies in, below the root, is that of a source file, but for
a line feed after the name of the file. -/
def HasSourceName (root f : Path) : Prop :=
  ∃ below, f.segments = root.segments ++ below ∧
    (IsSource f.name ∨ (∃ d ∈ below.dropLast, IsSource d) ∨ ∃ name, IsSource name ∧ f.name = name ++ "\n")

theorem hasSourceName_of_goesThrough {file : String} {above below : List String}
    (hfile : Text.Regular file.toList) (hparts : parts file = above ++ below) (h : GoesThrough below) :
    HasSourceName root (root.join (ofText file)) := by
  obtain ⟨before, part, after, rfl, -, hpart⟩ := h
  have hsegments : (root.join (ofText file)).segments = root.segments ++ parts file := by
    rw [Path.ofText_regular hfile]
    rfl
  refine ⟨parts file, hsegments, ?_⟩
  have hname (h : after = []) : (root.join (ofText file)).name = part := by
    rw [Path.name, hsegments, hparts, h]
    simp
  rcases hpart with hpart | ⟨hafter, name, hsource, rfl⟩
  · by_cases hafter : after = []
    · exact .inl (hname hafter ▸ hpart)
    · refine .inr (.inl ⟨part, ?_, hpart⟩)
      rw [hparts, ← List.append_assoc, List.dropLast_append_of_ne_nil (List.cons_ne_nil _ _),
        List.dropLast_cons_of_ne_nil hafter]
      exact List.mem_append_right _ List.mem_cons_self
  · exact .inr (.inr ⟨name, hsource, hname hafter⟩)

/-- The glob of source files is one from wherever it is seen. -/
theorem hasGlob_seenFrom_sourceGlob (root : Path) :
    seenFrom root sourceGlob = sourceGlob ∧ hasGlob (seenFrom root sourceGlob) = true := by
  have hseen : seenFrom root sourceGlob = sourceGlob := if_neg (by decide)
  rw [hseen]
  exact ⟨rfl, by decide⟩

/-- It asks for itself. -/
theorem globsOf_sourceGlob (t : Tree) (root : Path) : t.globsOf root sourceGlob = [sourceGlob] := by
  obtain ⟨hseen, hglob⟩ := hasGlob_seenFrom_sourceGlob root
  unfold globsOf
  dsimp only
  rw [if_pos hglob, hseen]

/-- A path of a folder asks for the source files below what is read of it. -/
theorem globsOf_eq_onward (hglob : hasGlob (seenFrom root pattern) = false)
    (hfolder : t.isFolder (root.absolute (seenFrom root pattern)) = true) :
    t.globsOf root pattern = [onward (ofText (seenFrom root pattern)).segments sourceGlob] := by
  rw [globsOf_of_folder hglob hfolder, folderGlob_eq (not_isAbsoluteText_seenFrom root pattern)]

/-- What is read of a text that is no glob is expanded to nothing else. -/
theorem plain_of_hasGlob {seen : String} (hglob : hasGlob seen = false) :
    ∀ s ∈ (ofText seen).segments, '*' ∉ s.toList ∧ '\x7b' ∉ s.toList := by
  intro s hs
  have hchars (c : Char) (hc : c ∈ s.toList) : c ∉ "*?[]\x7b\x7d".toList :=
    hasGlob_eq_false_iff.1 hglob c (Path.subset_of_mem_ofText hs hc)
  exact ⟨fun hc => hchars _ hc (by decide), fun hc => hchars _ hc (by decide)⟩

/-- **A pattern that asks for source files** names no file, and comes to the glob of the source files
below some parts. -/
theorem AsksForSources.exists_globsOf (h : t.AsksForSources root pattern) :
    (∀ p, ¬ t.Names root pattern p) ∧ ∃ start, Written start ∧
      (∀ s ∈ start, '*' ∉ s.toList ∧ '\x7b' ∉ s.toList) ∧
      t.globsOf root pattern = [onward start sourceGlob] := by
  rcases h with rfl | ⟨hglob, hfolder⟩
  · refine ⟨fun p hp => ?_, [], by simp [Written], by simp, globsOf_sourceGlob t root⟩
    cases hp.1.symm.trans (hasGlob_seenFrom_sourceGlob root).2
  · refine ⟨?_, _, Path.written_ofText _, plain_of_hasGlob hglob, globsOf_eq_onward hglob hfolder⟩
    rintro _ ⟨-, rfl, hfile⟩
    rw [isFolder_of_isFile hfile] at hfolder
    cases hfolder

/-- **Where source files are asked for**, the file or a folder that it lies in is named like one. -/
theorem hasSourceName_of_asks (ht : t.root.Proper) (h : t.AsksForSources root pattern)
    (hasks : t.Asks root pattern f) : HasSourceName root f := by
  obtain ⟨hnames, start, hstart, hplain, hglobs⟩ := h.exists_globsOf
  obtain ⟨folders, file, hreached, rfl, glob, hglob, hincludes⟩ := hasks.resolve_left (hnames f)
  rw [hglobs, List.mem_singleton] at hglob
  obtain ⟨above, below, hparts, hthrough⟩ := Glob.exists_goesThrough hstart hplain (hglob ▸ hincludes)
  exact hasSourceName_of_goesThrough (hreached.spec ht.wellNamed).1 hparts hthrough

/-- A pattern that asks for source files below parts that stand for themselves is not refused. -/
theorem AsksForSources.accepts (h : t.AsksForSources root pattern) (hstart : Written start)
    (hliteral : ∀ s ∈ start, Glob.Literal s.toList ∧ '\x7b' ∉ s.toList)
    (hmark : (joined start).toList.head? ≠ some '!')
    (hglobs : t.globsOf root pattern = [onward start sourceGlob]) : t.Accepts root pattern := by
  constructor
  · rcases h with rfl | ⟨-, hfolder⟩
    · exact .inl (hasGlob_seenFrom_sourceGlob root).2
    · exact .inr (isTooLong_of_isFolder hfolder)
  · rw [hglobs]
    intro line hline
    obtain ⟨-, p, hp⟩ := Glob.of_mem_lines_sources hstart hliteral hmark hline
    exact ⟨some p, hp⟩

/-- **What a pattern finds** that asks for source files below parts that stand for themselves. -/
theorem exists_files_sources (ht : t.root.Proper) (hasked : asked patterns fallback = [pattern])
    (h : t.AsksForSources root pattern) (hstart : Written start)
    (hliteral : ∀ s ∈ start, Glob.Literal s.toList ∧ '\x7b' ∉ s.toList)
    (hmark : (joined start).toList.head? ≠ some '!')
    (hglobs : t.globsOf root pattern = [onward start sourceGlob])
    (hex : Glob.Spec.build exclude = .ok excluded) :
    ∃ out, t.files root patterns exclude fallback = .ok out ∧ ∀ f, f ∈ out ↔ ∃ file,
      t.Spared root excluded file ∧ f = root.join (ofText file) ∧
        ∃ below, parts file = start ++ below ∧ GoesThrough below := by
  obtain ⟨out, hout⟩ : ∃ out, t.files root patterns exclude fallback = .ok out := by
    rw [exists_files_iff_each, hasked, List.forall_mem_singleton]
    exact ⟨⟨excluded, hex⟩, h.accepts hstart hliteral hmark hglobs⟩
  have hmarks : t.Unmarked root (asked patterns fallback) := by
    intro r hr line hline
    rw [(plan_spec hr).1, hasked, List.flatMap_singleton, hglobs] at hline
    rw [(Glob.of_mem_lines_sources hstart hliteral hmark hline).1]
    decide
  obtain ⟨hnames, -⟩ := h.exists_globsOf
  refine ⟨out, hout, fun f => ?_⟩
  rw [mem_files_iff ht.wellNamed hmarks hex hout, hasked]
  simp only [List.mem_singleton, exists_eq_left, Finds, hnames, false_or, hglobs]
  refine exists_congr fun file => and_congr_right fun ⟨folders, hreached, _⟩ => and_congr_right fun _ => ?_
  exact Glob.includes_sources_iff hstart hliteral hmark (hreached.spec ht.wellNamed).1

/-- **Source files below a folder.** What is found was asked for by one of the patterns, and where that
is the glob of source files or a path of a folder, the file or a folder that it lies in is named like a
source file. Without patterns those files are found, of the files that are not excluded, of which some
part of the path is named so. By the path of a folder those are found of which such a part stands below
the folder, when the text of the path can stand in a glob as it is and does not start with `!`. -/
theorem sources_of_files (t : Tree) (root : Path) (exclude : List String) (ht : t.root.Proper) :
    (∀ patterns fallback out, t.files root patterns exclude fallback = .ok out →
      ∀ f ∈ out, ∃ pattern ∈ asked patterns fallback, t.Asks root pattern f) ∧
    (∀ pattern f, t.AsksForSources root pattern → t.Asks root pattern f → HasSourceName root f) ∧
    ∀ excluded, Glob.Spec.build exclude = .ok excluded →
      (∃ out, t.files root [] exclude defaultInclude = .ok out ∧ ∀ f, f ∈ out ↔ ∃ file,
        t.Spared root excluded file ∧ f = root.join (ofText file) ∧ GoesThrough (parts file)) ∧
      ∀ pattern fallback, hasGlob (seenFrom root pattern) = false →
        t.isFolder (root.absolute (seenFrom root pattern)) = true → '\\' ∉ (seenFrom root pattern).toList →
        (joined (ofText (seenFrom root pattern)).segments).toList.head? ≠ some '!' →
        ∃ out, t.files root [pattern] exclude fallback = .ok out ∧ ∀ f, f ∈ out ↔ ∃ file,
          t.Spared root excluded file ∧ f = root.join (ofText file) ∧ ∃ below,
            parts file = (ofText (seenFrom root pattern)).segments ++ below ∧ GoesThrough below := by
  refine ⟨fun patterns fallback out hout f hf => exists_asks_of_mem_files ht hout hf,
    fun pattern f h hasks => hasSourceName_of_asks ht h hasks, fun excluded hex =>
    ⟨?_, fun pattern fallback hglob hfolder hback hmark => ?_⟩⟩
  · have hasked : asked [] defaultInclude = [sourceGlob] := rfl
    have hroot : Written [] := fun _ hs => absurd hs List.not_mem_nil
    obtain ⟨out, hout, hmem⟩ := exists_files_sources ht hasked (.inl rfl) hroot (by simp) (by decide)
      (globsOf_sourceGlob t root) hex
    refine ⟨out, hout, fun f => ?_⟩
    simp only [hmem, List.nil_append, exists_eq_left']
  · exact exists_files_sources ht rfl (.inr ⟨hglob, hfolder⟩) (Path.written_ofText _) (fun s hs =>
      Glob.literal_of_hasGlob hglob (fun c hc => .inr (Path.subset_of_mem_ofText hs hc)) hback) hmark
      (globsOf_eq_onward hglob hfolder) hex

namespace Sample

/-- A project with a folder that is named like a source file. -/
def packages : Tree where
  root := .folder [("project", .folder [("pkg.ts", .folder [("data.json", .file [] false)])])]

theorem packages_proper : packages.root.Proper :=
  (proper_and_plain (by decide) (by decide) (by decide) (by decide) (by decide) (by
    intro e he
    rw [List.mem_singleton.1 he]
    exact ⟨_, _, rfl⟩)).1

end Sample

/-- The hypotheses of `sources_of_files` hold together: without patterns the file in the folder `pkg.ts`
is found, and by the path of that folder nothing is, for no part below it is named like a source file. -/
theorem sources_of_files_sample : Sample.packages.root.Proper ∧
    Glob.Spec.build [] = .ok ⟨[]⟩ ∧
    Sample.packages.files Sample.project [] [] defaultInclude = .ok [⟨1, ["project", "pkg.ts", "data.json"]⟩] ∧
    Sample.packages.AsksForSources Sample.project sourceGlob ∧
    Sample.packages.Asks Sample.project sourceGlob ⟨1, ["project", "pkg.ts", "data.json"]⟩ ∧
    HasSourceName Sample.project ⟨1, ["project", "pkg.ts", "data.json"]⟩ ∧
    (∃ file, Sample.packages.Spared Sample.project ⟨[]⟩ file ∧
      ⟨1, ["project", "pkg.ts", "data.json"]⟩ = Sample.project.join (ofText file) ∧ GoesThrough (parts file)) ∧
    Sample.packages.isFolder (Sample.project.absolute (seenFrom Sample.project "pkg.ts")) = true ∧
    Sample.packages.files Sample.project ["pkg.ts"] [] [] = .ok [] ∧
    ∀ file below, Sample.packages.Spared Sample.project ⟨[]⟩ file → parts file = "pkg.ts" :: below →
      ¬ GoesThrough below := by
  obtain ⟨hasked, hnamed, hexact⟩ := sources_of_files Sample.packages Sample.project [] Sample.packages_proper
  obtain ⟨⟨out, hout, hall⟩, hfolders⟩ := hexact ⟨[]⟩ rfl
  have hfound : Sample.packages.files Sample.project [] [] defaultInclude =
      .ok [⟨1, ["project", "pkg.ts", "data.json"]⟩] := by decide +kernel
  have hnone : Sample.packages.files Sample.project ["pkg.ts"] [] [] = .ok [] := by decide +kernel
  have hfolder : Sample.packages.isFolder (Sample.project.absolute (seenFrom Sample.project "pkg.ts")) = true := by
    decide +kernel
  cases hout.symm.trans hfound
  obtain ⟨_, hpattern, hasks⟩ := hasked _ _ _ hfound _ (List.mem_singleton_self _)
  cases List.mem_singleton.1 hpattern
  obtain ⟨out, hout, hbelow⟩ := hfolders "pkg.ts" [] (by decide) hfolder (by decide) (by decide)
  cases hout.symm.trans hnone
  refine ⟨Sample.packages_proper, rfl, hfound, .inl rfl, hasks, hnamed _ _ (.inl rfl) hasks,
    (hall _).1 (List.mem_singleton_self _), hfolder, hnone, fun file below hspared hparts hthrough => ?_⟩
  exact absurd ((hbelow _).2 ⟨file, hspared, rfl, below, hparts, hthrough⟩) List.not_mem_nil

/-- **A file of another kind is found** where source files are asked for: it lies in a folder that is
named like one. -/
theorem not_isSource_of_files : ¬ ∀ (t : Tree) (root : Path) (patterns exclude : List String),
    t.root.Proper → root.Rooted →
    (∀ pattern ∈ asked patterns defaultInclude, t.AsksForSources root pattern) →
    ∀ out, t.files root patterns exclude defaultInclude = .ok out → ∀ f ∈ out, IsSource f.name := by
  intro h
  refine absurd (h Sample.packages Sample.project [] [] Sample.packages_proper Sample.rooted ?_
    [⟨1, ["project", "pkg.ts", "data.json"]⟩] (by decide +kernel) _ (List.mem_singleton_self _)) (by decide)
  exact fun pattern hpattern => .inl (List.mem_singleton.1 hpattern)

end Tree
end LintMerge
