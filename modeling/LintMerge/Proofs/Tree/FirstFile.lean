/-
# The first path that leads to a file

Paths are looked up in their order until one leads to a file (`Tree.firstFile`). The outcome
depends on nothing but how the paths are looked up (`Tree.firstFile_congr`), and on no path after
one that leads to a file; a path that can be looked up and leads to no file is passed over
(`Tree.Lacks`).
-/

import LintMerge.Proofs.Tree.Lookup

namespace LintMerge
namespace Tree

variable {t t' : Tree} {p : Path} {paths : List Path}

/-- Of two rows of paths the second is looked up when the first leads to no file. -/
theorem firstFile_append (t : Tree) (ps qs : List Path) :
    t.firstFile (ps ++ qs) = t.firstFile ps >>= fun
      | some path => .ok (some path)
      | none => t.firstFile qs := by
  induction ps with
  | nil => rfl
  | cons p rest ih =>
    rw [List.cons_append, firstFile, firstFile]
    split
    · rfl
    · split
      · rfl
      · exact ih

/-- Paths are not looked up for one of them that is too long. -/
theorem isTooLong_of_firstFile (h : t.firstFile paths = .error p) :
    p ∈ paths ∧ t.isTooLong p = true := by
  induction paths with
  | nil => cases h
  | cons path rest ih =>
    rw [firstFile] at h
    split at h
    · next hlong =>
      cases h
      exact ⟨List.mem_cons_self, hlong⟩
    · split at h
      · cases h
      · obtain ⟨hp, hlong⟩ := ih h
        exact ⟨List.mem_cons_of_mem _ hp, hlong⟩

/-- The first path that leads to a file is one of the paths, and leads to a file. -/
theorem mem_of_firstFile (h : t.firstFile paths = .ok (some p)) : p ∈ paths ∧ t.isFile p = true := by
  induction paths with
  | nil => cases h
  | cons path rest ih =>
    rw [firstFile] at h
    split at h
    · cases h
    · split at h
      · next hfile =>
        cases h
        exact ⟨List.mem_cons_self, hfile⟩
      · obtain ⟨hmem, hfile⟩ := ih h
        exact ⟨List.mem_cons_of_mem _ hmem, hfile⟩

/-- A path is looked up alike in two trees: it is too long in both or in none, and leads to a file in
both or in none. -/
def LooksAlike (t t' : Tree) (p : Path) : Prop :=
  t.isTooLong p = t'.isTooLong p ∧ t.isFile p = t'.isFile p

instance (t t' : Tree) (p : Path) : Decidable (t.LooksAlike t' p) := inferInstanceAs (Decidable (_ ∧ _))

/-- Nothing but how the paths are looked up decides on which is the first that leads to a file. -/
theorem firstFile_congr (h : ∀ p ∈ paths, t.LooksAlike t' p) : t.firstFile paths = t'.firstFile paths := by
  induction paths with
  | nil => rfl
  | cons path rest ih =>
    obtain ⟨⟨hlong, hfile⟩, hrest⟩ := List.forall_mem_cons.1 h
    rw [firstFile, firstFile, hlong, hfile, ih hrest]

/-- After a path that leads to a file no other is looked up. -/
theorem firstFile_cons_of_isFile (hfile : t.isFile p = true) :
    t.firstFile (p :: paths) = .ok (some p) := by
  rw [firstFile, isTooLong_of_isFile hfile, hfile]
  rfl

theorem firstFile_append_cons_of_isFile (hfile : t.isFile p = true) (before after : List Path) :
    t.firstFile (before ++ p :: after) = t.firstFile (before ++ [p]) := by
  rw [firstFile_append, firstFile_append, firstFile_cons_of_isFile hfile, firstFile_cons_of_isFile hfile]

/-- A tree lacks a file at a path that can be looked up. -/
def Lacks (t : Tree) (p : Path) : Prop := t.isTooLong p = false ∧ t.isFile p = false

instance (t : Tree) (p : Path) : Decidable (t.Lacks p) := inferInstanceAs (Decidable (_ ∧ _))

/-- A path that leads to no file is passed over. -/
theorem Lacks.firstFile_cons (h : t.Lacks p) : t.firstFile (p :: paths) = t.firstFile paths := by
  rw [firstFile, h.1, h.2]
  rfl

end Tree
end LintMerge
