/-
# The files below a folder

`Below` tells which files lie below a node, and through which folders a file is reached;
links to folders lead nowhere. The walk over a folder visits exactly those that are reached
through folders none of which is excluded (`mem_walk`).

Names of entries are texts without a slash, not empty and not a dot (`Node.WellNamed`).
So the path of a file is regular, it tells the folders on the way (`Below.folders_unique`),
and it goes on from the path of each of them (`Below.folder_spec`).
-/

import LintMerge.Tree.Files
import LintMerge.Proofs.Text.Splitting

namespace LintMerge

namespace Node

/-- What the name of an entry is made of. -/
def IsName (s : String) : Prop := s ≠ "" ∧ s ≠ "." ∧ '/' ∉ s.toList

instance : DecidablePred IsName := fun s =>
  inferInstanceAs (Decidable (s ≠ "" ∧ s ≠ "." ∧ '/' ∉ s.toList))

/-- All entries at and below a node have names. -/
inductive WellNamed : Node → Prop where
  | file {content : List UInt8} {executable : Bool} : WellNamed (.file content executable)
  | link {target : String} : WellNamed (.link target)
  | folder {es : List (String × Node)} (names : ∀ e ∈ es, IsName e.1)
      (nodes : ∀ e ∈ es, WellNamed e.2) : WellNamed (.folder es)

theorem IsName.regular {s : String} (hs : IsName s) : Text.Regular s.toList := by
  obtain ⟨hne, hdot, hslash⟩ := hs
  intro part hpart
  rw [Text.splitOn_of_not_mem hslash, List.mem_singleton] at hpart
  subst hpart
  refine ⟨fun h => hne (String.toList_eq_nil_iff.1 h), fun h => hdot ?_⟩
  rw [← String.ofList_toList (s := s), h]

theorem mem_of_child? {name : String} {es : List (String × Node)} {n : Node}
    (h : child? name es = some n) : (name, n) ∈ es := by
  induction es with
  | nil => cases h
  | cons e rest ih =>
    obtain ⟨k, m⟩ := e
    rw [child?] at h
    split at h
    · next hk =>
      cases h
      exact hk ▸ List.mem_cons_self
    · exact List.mem_cons_of_mem _ (ih h)

/-- What holds of a folder holds of its entries. -/
def Hereditary (P : Node → Prop) : Prop := ∀ es, P (.folder es) → ∀ e ∈ es, P e.2

theorem hereditary_wellNamed : Hereditary WellNamed := by
  rintro es (_ | _ | ⟨_, nodes⟩)
  exact nodes

end Node

namespace Tree

/-- What holds of the root and of the nodes on a trail holds of its end. -/
theorem holds_trail {P : Node → Prop} {root : Node} (hroot : P root) {trail : Trail}
    (htrail : ∀ e ∈ trail, P e.2) : P (trail.node root) := by
  cases trail with
  | nil => exact hroot
  | cons e rest => exact htrail e List.mem_cons_self

/-- Wherever a path leads, what a root passes on holds of the nodes on the way. The induction is on
the links that may still be followed, and within it on the segments. -/
theorem holds_follow {P : Node → Prop} (hP : Node.Hereditary P) {root : Node} (hroot : P root)
    {links : Nat} {trail trail' : Trail} {segments : List String} (htrail : ∀ e ∈ trail, P e.2)
    (h : follow root links trail segments = .ok trail') : ∀ e ∈ trail', P e.2 := by
  have hdescend {leap : Trail → List String → Except Fault Trail}
      (hleap : ∀ tr ss tr', (∀ e ∈ tr, P e.2) → leap tr ss = .ok tr' → ∀ e ∈ tr', P e.2)
      (segments : List String) : ∀ {trail trail' : Trail}, (∀ e ∈ trail, P e.2) →
      descend root leap trail segments = .ok trail' → ∀ e ∈ trail', P e.2 := by
    induction segments with
    | nil =>
      intro trail trail' htrail h
      cases h
      exact htrail
    | cons s rest ih =>
      intro trail trail' htrail h
      rw [descend] at h
      split at h
      · next es hes =>
        have hfolder : P (.folder es) := hes ▸ holds_trail hroot htrail
        split at h
        · exact ih (fun e he => htrail e (List.mem_of_mem_tail he)) h
        · split at h
          · cases h
          · split at h
            · cases h
            · refine hleap _ _ _ (fun e he => ?_) h
              split at he
              · exact absurd he List.not_mem_nil
              · exact htrail e he
            · next n hn =>
              refine ih (fun e he => ?_) h
              rcases List.mem_cons.1 he with rfl | he
              · exact hP es hfolder _ (Node.mem_of_child? hn)
              · exact htrail e he
      · cases h
  induction links generalizing trail trail' segments with
  | zero => exact hdescend (fun _ _ _ _ h => by cases h) segments htrail h
  | succ links ih => exact hdescend (fun _ _ _ htr h => ih htr h) segments htrail h

/-- What a root passes on holds of the node at a path. -/
theorem holds_node? {P : Node → Prop} (hP : Node.Hereditary P) {t : Tree} (ht : P t.root) {p : Path}
    {n : Node} (h : t.node? p = some n) : P n := by
  rw [node?, node] at h
  cases htrail : t.trail p with
  | error e =>
    rw [htrail] at h
    cases h
  | ok trail =>
    rw [htrail] at h
    cases h
    rw [Tree.trail] at htrail
    split at htrail
    · cases htrail
    split at htrail
    · cases htrail
    · exact holds_trail ht (holds_follow hP ht (fun _ he => absurd he List.not_mem_nil) htrail)

/-- The node at a path is well named when the tree is. -/
theorem wellNamed_node? {t : Tree} (ht : t.root.WellNamed) {p : Path} {n : Node}
    (h : t.node? p = some n) : n.WellNamed :=
  holds_node? Node.hereditary_wellNamed ht h

/-- A file is at a node of a path or below it, and is reached through some folders. A link to a
folder is no file and leads to none. -/
inductive Below (isFolder : String → Bool) : String → Node → List String → String → Prop where
  | file {path : String} {content : List UInt8} {executable : Bool} :
      Below isFolder path (.file content executable) [] path
  | link {path target : String} (hf : isFolder path = false) : Below isFolder path (.link target) [] path
  | folder {path name file : String} {n : Node} {es : List (String × Node)} {folders : List String}
      (he : (name, n) ∈ es) (hb : Below isFolder (path ++ "/" ++ name) n folders file) :
      Below isFolder path (.folder es) (path :: folders) file

variable {isFolder : String → Bool} {excluded : Glob.Spec} {path start file : String} {n : Node}
  {es : List (String × Node)} {folders : List String}

/-- A file is at a node or below it, and no folder on the way to it is excluded. -/
def Visited (excluded : Glob.Spec) (isFolder : String → Bool) (path : String) (n : Node) (file : String) :
    Prop :=
  ∃ folders, Below isFolder path n folders file ∧ ∀ d ∈ folders, excluded.excludes d true = false

/-- **The walk** visits the files that are reached through folders none of which is excluded. The
induction follows the walk: over nodes, the entries of folders, and single entries. -/
theorem mem_walk (excluded : Glob.Spec) (isFolder : String → Bool) (start : String)
    (es : List (String × Node)) : ∀ file, file ∈ walk excluded isFolder start es ↔
      ∃ e ∈ es, Visited excluded isFolder (start ++ e.1) e.2 file := by
  refine (walkNode.mutual_induct excluded isFolder
    (fun path n => ∀ file, file ∈ walkNode excluded isFolder path n ↔
      Visited excluded isFolder path n file)
    (fun start es => ∀ file, file ∈ walk excluded isFolder start es ↔
      ∃ e ∈ es, Visited excluded isFolder (start ++ e.1) e.2 file)
    (fun start e => ∀ file, file ∈ walkEntry excluded isFolder start e ↔
      Visited excluded isFolder (start ++ e.1) e.2 file)
    ?file ?linkToFolder ?link ?excluded ?folder ?nil ?cons ?entry).2.1 start es
  case file =>
    intro path content executable file
    rw [walkNode, List.mem_singleton]
    constructor
    · rintro rfl
      exact ⟨[], .file, fun _ hd => absurd hd List.not_mem_nil⟩
    · rintro ⟨_, hb, -⟩
      cases hb
      rfl
  case linkToFolder =>
    intro path target hf file
    rw [walkNode, if_pos hf]
    constructor
    · intro h
      exact absurd h List.not_mem_nil
    · rintro ⟨_, hb, -⟩
      cases hb with
      | link hnot => rw [hf] at hnot; cases hnot
  case link =>
    intro path target hf file
    rw [walkNode, if_neg hf, List.mem_singleton]
    constructor
    · rintro rfl
      exact ⟨[], .link (Bool.not_eq_true _ ▸ hf), fun _ hd => absurd hd List.not_mem_nil⟩
    · rintro ⟨_, hb, -⟩
      cases hb
      rfl
  case excluded =>
    intro path es hex file
    rw [walkNode, if_pos hex]
    constructor
    · intro h
      exact absurd h List.not_mem_nil
    · rintro ⟨_, hb, hfolders⟩
      cases hb
      rw [hfolders path List.mem_cons_self] at hex
      cases hex
  case folder =>
    intro path es hex ih file
    rw [walkNode, if_neg hex, ih]
    constructor
    · rintro ⟨⟨name, n⟩, he, folders, hb, hfolders⟩
      refine ⟨path :: folders, .folder he hb, fun d hd => ?_⟩
      rcases List.mem_cons.1 hd with rfl | hd
      · exact Bool.not_eq_true _ ▸ hex
      · exact hfolders d hd
    · rintro ⟨_, hb, hfolders⟩
      cases hb with
      | folder he hb => exact ⟨_, he, _, hb, fun d hd => hfolders d (List.mem_cons_of_mem _ hd)⟩
  case nil =>
    intro start file
    rw [walk]
    simp
  case cons =>
    intro start e rest ihe ihrest file
    rw [walk, List.mem_append, ihe, ihrest]
    simp
  case entry =>
    intro start name n ih file
    rw [walkEntry]
    exact ih file

/-- A file below a node is at the path of the node or goes on from it after a slash. -/
theorem Below.exists_rest (hb : Below isFolder path n folders file) :
    ∃ rest, file.toList = path.toList ++ rest ∧ (rest = [] ∨ rest.head? = some '/') := by
  induction hb with
  | file => exact ⟨[], (List.append_nil _).symm, .inl rfl⟩
  | link => exact ⟨[], (List.append_nil _).symm, .inl rfl⟩
  | @folder path name file n es folders he _ ih =>
    obtain ⟨rest, hrest, -⟩ := ih
    refine ⟨'/' :: name.toList ++ rest, ?_, .inr rfl⟩
    rw [hrest, String.toList_append, String.toList_append]
    simp

theorem regular_child {path name : String} (hpath : Text.Regular path.toList) (hname : Node.IsName name) :
    Text.Regular (path ++ "/" ++ name).toList := by
  rw [String.toList_append, String.toList_append, List.append_assoc]
  exact hpath.append hname.regular

/-- The path of a file below a regular path is regular. -/
theorem Below.regular (hn : n.WellNamed) (hpath : Text.Regular path.toList)
    (hb : Below isFolder path n folders file) : Text.Regular file.toList := by
  induction hb with
  | file => exact hpath
  | link => exact hpath
  | folder he _ ih =>
    cases hn with
    | folder names nodes => exact ih (nodes _ he) (regular_child hpath (names _ he))

/-- The folders on the way to a file have regular paths, and the path of the file goes on from
each of them after a slash. -/
theorem Below.folder_spec (hn : n.WellNamed) (hpath : Text.Regular path.toList)
    (hb : Below isFolder path n folders file) {d : String} (hd : d ∈ folders) :
    Text.Regular d.toList ∧ ∃ rest, file.toList = d.toList ++ '/' :: rest := by
  induction hb with
  | file => exact absurd hd List.not_mem_nil
  | link => exact absurd hd List.not_mem_nil
  | @folder path name file n es folders he hb ih =>
    cases hn with
    | folder names nodes =>
      rcases List.mem_cons.1 hd with rfl | hd
      · obtain ⟨rest, hrest, -⟩ := hb.exists_rest
        refine ⟨hpath, name.toList ++ rest, ?_⟩
        rw [hrest, String.toList_append, String.toList_append]
        simp
      · exact ih (nodes _ he) (regular_child hpath (names _ he)) hd

/-- Two names, after each of which a path ends or a slash follows, are one. -/
theorem name_unique {name name' : String} {rest rest' : List Char} (hname : Node.IsName name)
    (hname' : Node.IsName name') (hrest : rest = [] ∨ rest.head? = some '/')
    (hrest' : rest' = [] ∨ rest'.head? = some '/')
    (h : name.toList ++ rest = name'.toList ++ rest') : name = name' := by
  have hcut {s : String} {r : List Char} (hs : Node.IsName s) (hr : r = [] ∨ r.head? = some '/') :
      (s.toList ++ r).takeWhile (· ≠ '/') = s.toList := by
    have hall : ∀ c ∈ s.toList, decide (c ≠ '/') = true := fun c hc =>
      decide_eq_true fun hslash => hs.2.2 (hslash ▸ hc)
    rw [List.takeWhile_append_of_pos hall]
    rcases hr with rfl | hr
    · simp
    · obtain ⟨r', rfl⟩ := List.head?_eq_some_iff.1 hr
      simp
  rw [← String.toList_inj, ← hcut hname hrest, ← hcut hname' hrest', h]

/-- **The path of a file tells the folders on the way to it.** -/
theorem Below.folders_unique {n' : Node} {folders' : List String} (hn : n.WellNamed)
    (hn' : n'.WellNamed) (hb : Below isFolder path n folders file)
    (hb' : Below isFolder path n' folders' file) : folders = folders' := by
  have hleaf {path file : String} {n : Node} {folders : List String}
      (hb : Below isFolder path n folders file) (hfile : file = path) : folders = [] := by
    cases hb with
    | file => rfl
    | link => rfl
    | folder _ hb =>
      obtain ⟨rest, hrest, -⟩ := hb.exists_rest
      rw [hfile, String.toList_append, String.toList_append, List.append_assoc,
        List.append_assoc] at hrest
      have hnil := List.self_eq_append_right.1 hrest
      simp at hnil
  induction hb generalizing n' folders' with
  | file => exact (hleaf hb' rfl).symm
  | link => exact (hleaf hb' rfl).symm
  | @folder path name file n es folders he hb ih =>
    cases hb' with
    | file => exact hleaf (.folder he hb) rfl
    | link => exact hleaf (.folder he hb) rfl
    | @folder _ name' _ n' es' folders' he' hb' =>
      cases hn with
      | folder names nodes =>
        cases hn' with
        | folder names' nodes' =>
          obtain ⟨rest, hrest, hend⟩ := hb.exists_rest
          obtain ⟨rest', hrest', hend'⟩ := hb'.exists_rest
          have hname : name = name' := by
            refine name_unique (names _ he) (names' _ he') hend hend' ?_
            rw [hrest, String.toList_append, String.toList_append, List.append_assoc] at hrest'
            simpa using hrest'
          subst hname
          rw [ih (nodes _ he) (nodes' _ he') hb']

end Tree
end LintMerge
