/-
# Keys are canonical

Seen from a directory, every text has one key, and the keys are told apart by where their
texts lead. A key is written in one form: `.`, or steps up and after them steps down
(`Path.IsWay`). Read again it leads where its text leads, it is its own key, and two texts have
one key exactly when they lead along the same segments (`Path.key_canonical`).

The directory may itself be written with `..`: it is seen from as if it were collapsed
(`Path.key_collapsed`, `Path.absolute_collapsed`), so what holds of the roots in normal form
holds of every text that names one.
-/

import LintMerge.Proofs.Path.Keys

namespace LintMerge
namespace Path

variable {root : Path} {b : String}

/-- A part of a text that leads down. -/
def IsStep (part : String) : Prop := part ≠ "" ∧ part ≠ "." ∧ part ≠ ".."

/-- The texts of ways: `.`, or steps up and after them steps down. -/
def IsWay (k : String) : Prop :=
  k = "." ∨ ∃ up down, parts k = List.replicate up ".." ++ down ∧ ∀ part ∈ down, IsStep part

/-- A way leads up and then along the end of where it leads. -/
theorem relative_eq_up_append (start target : List String) :
    ∃ up down, relative start target = List.replicate up ".." ++ down ∧ down <:+ target := by
  induction start, target using relative.induct with
  | case1 s b t ih =>
    obtain ⟨up, down, h, hdown⟩ := ih
    rw [relative, if_pos rfl]
    exact ⟨up, down, h, hdown.trans (List.suffix_cons b t)⟩
  | case2 a s b t hab =>
    rw [relative, if_neg hab, List.map_const', ← List.replicate_succ]
    exact ⟨_, b :: t, rfl, List.suffix_rfl⟩
  | case3 s t hcons =>
    rw [relative]
    · rw [List.map_const']
      exact ⟨_, t, rfl, List.suffix_rfl⟩
    · exact hcons

/-- **A key is the text of a way.** -/
theorem isWay_key (hroot : root.Rooted) (s : String) : IsWay (root.key s) := by
  have htarget := rooted_absolute hroot s
  rw [key_eq hroot]
  by_cases hnil : relative root.segments (root.absolute s).segments = []
  · rw [hnil]
    exact .inl rfl
  · obtain ⟨up, down, h, hdown⟩ := relative_eq_up_append root.segments (root.absolute s).segments
    rw [text_of_ne_nil hnil]
    have hwritten : Written (relative root.segments (root.absolute s).segments) :=
      written_relative htarget.written
    refine .inr ⟨up, down, (parts_joined hwritten hnil).trans h, fun part hpart => ?_⟩
    have hmem : part ∈ (root.absolute s).segments := hdown.subset hpart
    obtain ⟨hempty, hdot⟩ := isSegment_iff.1 (htarget.written part hmem).1
    exact ⟨hempty, hdot, fun hup => htarget.straight (hup ▸ hmem)⟩

/-- **Keys tell apart** the texts that lead along different segments, and no others. -/
theorem key_eq_key_iff (hroot : root.Rooted) (s t : String) :
    root.key s = root.key t ↔ (root.absolute s).segments = (root.absolute t).segments := by
  constructor
  · intro h
    have habsolute := congrArg root.absolute h
    rw [absolute_key_eq hroot, absolute_key_eq hroot] at habsolute
    exact (Path.mk.inj habsolute).2
  · intro h
    rw [key_eq hroot, key_eq hroot, h]

/-- Segments can be collapsed in two steps. -/
theorem collapseFrom_reverse_collapseFrom (done s t : List String) :
    collapseFrom (collapseFrom done s).reverse t = collapseFrom done (s ++ t) := by
  induction s generalizing done with
  | nil => rw [collapseFrom, List.reverse_reverse, List.nil_append]
  | cons a s ih =>
    rw [List.cons_append, collapseFrom, collapseFrom]
    split
    · exact ih done.tail
    · exact ih (a :: done)

theorem collapse_collapse_append (s t : List String) : collapse (collapse s ++ t) = collapse (s ++ t) := by
  have hstraight : ".." ∉ collapse s := straight_collapseFrom List.not_mem_nil
  rw [collapse, collapseFrom_append hstraight, List.append_nil]
  exact collapseFrom_reverse_collapseFrom [] s t

/-- A path with `..` resolved. -/
def collapsed (p : Path) : Path := ⟨p.slashes, collapse p.segments⟩

/-- What a text names below a directory is what it names below the directory collapsed. -/
theorem absolute_collapsed (base : Path) (s : String) : base.collapsed.absolute s = base.absolute s := by
  rw [absolute, absolute, join, join]
  split
  · rfl
  · rw [collapsed, collapse_collapse_append]

theorem key_collapsed (base : Path) (s : String) : base.collapsed.key s = base.key s := by
  have hstraight : ".." ∉ collapse base.segments := straight_collapseFrom List.not_mem_nil
  rw [key, key, collapsed]
  dsimp only
  rw [collapse_of_straight hstraight]

/-- A text with a root names a path in normal form once it is collapsed. -/
theorem rooted_collapsed (hb : isAbsoluteText b = true) : (ofText b).collapsed.Rooted where
  slashes := (slashesOf_cases b.toList).resolve_left (slashes_ofText_ne_zero_iff.2 hb)
  written part hpart := written_ofText b part ((mem_of_mem_collapseFrom hpart).resolve_left List.not_mem_nil)
  straight := straight_collapseFrom List.not_mem_nil

/-- **Keys are canonical.** From a directory that a text with a root names, every text has a key
that is not empty, has no root and is the text of a way. It leads where the text leads, is its
own key, and is shared with exactly the texts that lead along the same segments. -/
theorem key_canonical (hb : isAbsoluteText b = true) (p : String) :
    (ofText b).key p ≠ "" ∧ isAbsoluteText ((ofText b).key p) = false ∧ IsWay ((ofText b).key p) ∧
      ((ofText b).absolute ((ofText b).key p)).segments = ((ofText b).absolute p).segments ∧
      (ofText b).key ((ofText b).key p) = (ofText b).key p ∧
      ∀ q, (ofText b).key p = (ofText b).key q ↔
        ((ofText b).absolute p).segments = ((ofText b).absolute q).segments := by
  have hroot : (ofText b).collapsed.Rooted := rooted_collapsed hb
  refine ⟨key_ne_empty _ p, not_isAbsoluteText_key _ p, ?way, ?leads, ?again, ?apart⟩
  all_goals simp only [← key_collapsed (ofText b), ← absolute_collapsed (ofText b)]
  case way => exact isWay_key hroot p
  case leads => rw [absolute_key_eq hroot]
  case again => exact key_key hroot p
  case apart => exact key_eq_key_iff hroot p

/-- From a directory that is written with `..`, a text with two slashes and one that leads above
the directory have one key. -/
theorem key_canonical_sample :
    isAbsoluteText "/work/./old/../project" = true ∧
      (ofText "/work/./old/../project").key "//work/lib//a.py" = "../lib/a.py" ∧
      (ofText "/work/./old/../project").key "../../../work/lib/./a.py" = "../lib/a.py" ∧
      IsWay "../lib/a.py" ∧
      (ofText "/work/./old/../project").key "../lib/a.py" = "../lib/a.py" := by
  have hb : isAbsoluteText "/work/./old/../project" = true := by decide
  have hkey : (ofText "/work/./old/../project").key "//work/lib//a.py" = "../lib/a.py" := by decide
  obtain ⟨-, -, hway, -, hagain, hsame⟩ := key_canonical hb "//work/lib//a.py"
  rw [hkey] at hway hagain
  have htwo := (hsame "../../../work/lib/./a.py").2 (by decide)
  exact ⟨hb, hkey, htwo.symm.trans hkey, hway, hagain⟩

end Path
end LintMerge
