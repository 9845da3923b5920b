/-
# Looking up what was found

In a tree as a file system has it no name of an entry leads up (`Node.Proper`). So the path
at which a file is found below a root is in normal form, and its key is the text under which
the search found it (`Tree.Reached.rooted`).

In a tree of files and folders only, in which no folder has two entries of one name and no name
could end a path (`Node.Plain`), looking a path up is going from entry to entry (`Node.Leads`);
nothing but the length of the path or of a segment can be in the way. So the path at which a file
is found leads to a file unless it is too long (`Tree.Reached.isFile`).
-/

import LintMerge.Proofs.Path.Keys
import LintMerge.Proofs.Tree.Pruning

namespace LintMerge

namespace Node

/-- All entries at and below a node have names, none of which leads up. -/
inductive Proper : Node → Prop where
  | file {content : List UInt8} {executable : Bool} : Proper (.file content executable)
  | link {target : String} : Proper (.link target)
  | folder {es : List (String × Node)} (names : ∀ e ∈ es, IsName e.1 ∧ e.1 ≠ "..")
      (nodes : ∀ e ∈ es, Proper e.2) : Proper (.folder es)

theorem Proper.wellNamed {n : Node} (h : n.Proper) : n.WellNamed := by
  induction h with
  | file => exact .file
  | link => exact .link
  | folder names _ ih => exact .folder (fun e he => (names e he).1) ih

theorem hereditary_proper : Hereditary Proper := by
  rintro es (_ | _ | ⟨_, nodes⟩)
  exact nodes

/-- Files and folders only, and in each folder one entry of a name, in which there is no U+0000. -/
inductive Plain : Node → Prop where
  | file {content : List UInt8} {executable : Bool} : Plain (.file content executable)
  | folder {es : List (String × Node)} (distinct : (es.map (·.1)).Nodup)
      (whole : ∀ e ∈ es, '\x00' ∉ e.1.toList) (nodes : ∀ e ∈ es, Plain e.2) : Plain (.folder es)

/-- A node is reached from another by the names of entries. -/
inductive Leads : Node → List String → Node → Prop where
  | here {n : Node} : Leads n [] n
  | step {es : List (String × Node)} {s : String} {n m : Node} {ss : List String}
      (he : child? s es = some n) (h : Leads n ss m) : Leads (.folder es) (s :: ss) m

theorem Leads.append {n m k : Node} {ss ts : List String} (h : Leads n ss m) (h' : Leads m ts k) :
    Leads n (ss ++ ts) k := by
  induction h with
  | here => exact h'
  | step he _ ih => exact .step he (ih h')

theorem Leads.plain {n m : Node} {ss : List String} (h : Leads n ss m) (hn : n.Plain) : m.Plain := by
  induction h with
  | here => exact hn
  | step he _ ih =>
    cases hn with
    | folder _ _ nodes => exact ih (nodes _ (mem_of_child? he))

/-- A path from entry to entry is taken as a whole. -/
theorem Leads.whole {n m : Node} {ss : List String} (h : Leads n ss m) (hn : n.Plain) :
    ∀ s ∈ ss, '\x00' ∉ s.toList := by
  induction h with
  | here => exact fun _ hs => absurd hs List.not_mem_nil
  | step he _ ih =>
    cases hn with
    | folder _ whole nodes =>
      have hmem := mem_of_child? he
      exact List.forall_mem_cons.2 ⟨whole _ hmem, ih (nodes _ hmem)⟩

/-- The entry of a name that occurs once. -/
theorem child?_of_mem {name : String} {n : Node} {es : List (String × Node)}
    (hes : (es.map (·.1)).Nodup) (h : (name, n) ∈ es) : child? name es = some n := by
  induction es with
  | nil => cases h
  | cons e rest ih =>
    obtain ⟨k, m⟩ := e
    rw [List.map_cons, List.nodup_cons] at hes
    rw [child?]
    rcases List.mem_cons.1 h with heq | h
    · cases heq
      rw [if_pos rfl]
    · have hk : k ≠ name := fun hk => hes.1 (List.mem_map.2 ⟨(name, n), h, hk.symm⟩)
      rw [if_neg hk]
      exact ih hes.2 h

end Node

namespace Tree

variable {isFolder : String → Bool} {path file : String} {n : Node} {folders : List String}

/-- On the path of a file below a path on which no segment leads up, none does. -/
theorem Below.straight (hn : n.Proper) (hpath : ".." ∉ Path.parts path)
    (hb : Below isFolder path n folders file) : ".." ∉ Path.parts file := by
  induction hb with
  | file => exact hpath
  | link => exact hpath
  | folder he _ ih =>
    cases hn with
    | folder names nodes =>
      obtain ⟨hname, hup⟩ := names _ he
      refine ih (nodes _ he) ?_
      rw [Path.parts_append, Path.parts_of_not_mem hname.2.2, List.mem_append, not_or,
        List.mem_singleton]
      exact ⟨hpath, Ne.symm hup⟩

/-- The names of entries lead to the file, and its path goes on with them. -/
theorem Below.leads (hn : n.Plain) (hproper : n.Proper) (hb : Below isFolder path n folders file) :
    ∃ ss content executable, Node.Leads n ss (.file content executable) ∧
      Path.parts file = Path.parts path ++ ss := by
  induction hb with
  | file => exact ⟨[], _, _, .here, (List.append_nil _).symm⟩
  | link => cases hn
  | @folder path name file n es folders he _ ih =>
    cases hn with
    | folder distinct _ nodes =>
      cases hproper with
      | folder names nodes' =>
        obtain ⟨ss, content, executable, hleads, hparts⟩ := ih (nodes _ he) (nodes' _ he)
        refine ⟨name :: ss, content, executable, .step (Node.child?_of_mem distinct he) hleads, ?_⟩
        rw [hparts, Path.parts_append, Path.parts_of_not_mem (names _ he).1.2.2, List.append_assoc]
        rfl

variable {root : Node} {leap : Trail → List String → Except Fault Trail} {trail trail' : Trail}
  {ss : List String}

/-- Where no link is in the way, a path leads from entry to entry. -/
theorem leads_of_descend (hplain : (trail.node root).Plain) (hss : ".." ∉ ss)
    (h : descend root leap trail ss = .ok trail') : Node.Leads (trail.node root) ss (trail'.node root) := by
  induction ss generalizing trail with
  | nil =>
    cases h
    exact .here
  | cons s ss ih =>
    rw [List.mem_cons, not_or] at hss
    rw [descend] at h
    split at h
    · next es hes =>
      rw [if_neg (Ne.symm hss.1)] at h
      rw [hes] at hplain ⊢
      cases hplain with
      | folder _ _ nodes =>
        split at h
        · cases h
        · split at h
          · cases h
          · next hlink => cases nodes _ (Node.mem_of_child? hlink)
          · next n _ hn =>
            refine .step hn (ih ?_ hss.2 h)
            exact nodes _ (Node.mem_of_child? hn)
    · cases h

/-- A path that leads from entry to entry is looked up unless one of its segments is too long. -/
theorem descend_of_leads {m : Node} (hplain : (trail.node root).Plain) (hss : ".." ∉ ss)
    (h : Node.Leads (trail.node root) ss m) :
    descend root leap trail ss = .error .tooLong ∨
      ∃ trail', descend root leap trail ss = .ok trail' ∧ trail'.node root = m := by
  induction ss generalizing trail with
  | nil =>
    generalize hnode : trail.node root = n at h
    cases h
    exact .inr ⟨trail, rfl, hnode⟩
  | cons s ss ih =>
    rw [List.mem_cons, not_or] at hss
    rw [descend]
    cases hes : trail.node root with
    | file content executable =>
      rw [hes] at h
      cases h
    | link target =>
      rw [hes] at h
      cases h
    | folder es =>
      rw [hes] at h hplain
      cases h with
      | @step _ _ n _ _ he h =>
        cases hplain with
        | folder _ _ nodes =>
          have hn : n.Plain := nodes _ (Node.mem_of_child? he)
          dsimp only
          rw [if_neg (Ne.symm hss.1), he]
          split
          · exact .inl rfl
          · cases hn with
            | file => exact @ih ((s, _) :: trail) .file hss.2 h
            | folder distinct whole nodes =>
              exact @ih ((s, _) :: trail) (.folder distinct whole nodes) hss.2 h

/-- Following links is descending, whatever is done at a link. -/
theorem exists_follow_eq (root : Node) (links : Nat) : ∃ leap, follow root links = descend root leap := by
  cases links with
  | zero => exact ⟨_, rfl⟩
  | succ links => exact ⟨_, rfl⟩

variable {t : Tree} {p : Path}

theorem leads_of_node? (ht : t.root.Plain) (hp : ".." ∉ p.segments) (h : t.node? p = some n) :
    Node.Leads t.root p.segments n := by
  obtain ⟨leap, hleap⟩ := exists_follow_eq t.root maxLinks
  rw [node?, node, Tree.trail] at h
  split at h
  · cases h
  split at h
  · cases h
  · rw [hleap] at h
    cases htrail : descend t.root leap [] p.segments with
    | error e =>
      rw [htrail] at h
      cases h
    | ok trail =>
      rw [htrail] at h
      cases h
      exact @leads_of_descend _ _ [] _ _ ht hp htrail

/-- The file to which a path leads is found there unless the path is too long. -/
theorem isFile_of_leads {content : List UInt8} {executable : Bool} (ht : t.root.Plain)
    (hp : ".." ∉ p.segments) (h : Node.Leads t.root p.segments (.file content executable)) :
    t.isTooLong p = true ∨ t.isFile p = true := by
  obtain ⟨leap, hleap⟩ := exists_follow_eq t.root maxLinks
  have htrail : t.trail p = .error .tooLong ∨
      ∃ trail, t.trail p = .ok trail ∧ trail.node t.root = .file content executable := by
    have hwhole : p.endsEarly = false := by simpa [Path.endsEarly] using h.whole ht
    rw [Tree.trail, hwhole, if_neg Bool.false_ne_true]
    split
    · exact .inl rfl
    · rw [hleap]
      exact @descend_of_leads _ _ [] _ _ ht hp h
  rcases htrail with hlong | ⟨trail, hok, hnode⟩
  · rw [isTooLong, hlong]
    exact .inl rfl
  · have hfound : t.node? p = some (.file content executable) := by
      rw [node?, node, hok]
      exact congrArg some hnode
    rw [isFile, hfound]
    exact .inr rfl

theorem isTooLong_of_node? {p : Path} {n : Node} (h : t.node? p = some n) : t.isTooLong p = false := by
  rw [node?, node] at h
  rw [isTooLong]
  cases htrail : t.trail p with
  | error e =>
    rw [htrail] at h
    cases h
  | ok trail => rfl

/-- A path that leads to a folder can be looked up. -/
theorem isTooLong_of_isFolder {p : Path} (h : t.isFolder p = true) : t.isTooLong p = false := by
  rw [isFolder] at h
  split at h
  · next hnode => exact isTooLong_of_node? hnode
  · cases h

/-- A path that leads to a file can be looked up. -/
theorem isTooLong_of_isFile {p : Path} (h : t.isFile p = true) : t.isTooLong p = false := by
  rw [isFile] at h
  split at h
  · next hnode => exact isTooLong_of_node? hnode
  · cases h

theorem proper_node? (ht : t.root.Proper) (h : t.node? p = some n) : n.Proper :=
  holds_node? Node.hereditary_proper ht h

variable {dir : Path}

/-- On the path of a file that is reached no segment leads up. -/
theorem Reached.straight (ht : t.root.Proper) (h : t.Reached dir folders file) : ".." ∉ Path.parts file := by
  obtain ⟨es, hes, e, he, hb⟩ := h
  cases proper_node? ht hes with
  | folder names nodes =>
    obtain ⟨hname, hup⟩ := names e he
    refine hb.straight (nodes e he) ?_
    rw [Path.parts_of_not_mem hname.2.2, List.mem_singleton]
    exact Ne.symm hup

/-- **The path at which a file is found** is in normal form, and its key is the text under which it
was found. -/
theorem Reached.rooted (ht : t.root.Proper) (hdir : dir.Rooted) (h : t.Reached dir folders file) :
    (dir.join (Path.ofText file)).Rooted ∧ dir.key (dir.join (Path.ofText file)).text = file :=
  Path.key_join hdir (h.spec ht.wellNamed).1 (h.straight ht)

/-- **The path at which a file is found** leads to a file, unless it is too long. -/
theorem Reached.isFile (ht : t.root.Proper) (hplain : t.root.Plain) (hdir : dir.Rooted)
    (h : t.Reached dir folders file) :
    t.isTooLong (dir.join (Path.ofText file)) = true ∨ t.isFile (dir.join (Path.ofText file)) = true := by
  have hrooted := (h.rooted ht hdir).1
  have hregular := (h.spec ht.wellNamed).1
  obtain ⟨es, hes, e, he, hb⟩ := h
  have hdirLeads := leads_of_node? hplain hdir.straight hes
  cases proper_node? ht hes with
  | folder names nodes =>
    cases hdirLeads.plain hplain with
    | folder distinct _ plain =>
      obtain ⟨ss, content, executable, hleads, hparts⟩ := hb.leads (plain e he) (nodes e he)
      rw [Path.parts_of_not_mem (names e he).1.2.2] at hparts
      have hstep : Node.Leads (.folder es) (Path.parts file) (.file content executable) := by
        rw [hparts]
        exact .step (Node.child?_of_mem distinct he) hleads
      have hsegments : (dir.join (Path.ofText file)).segments = dir.segments ++ Path.parts file := by
        rw [Path.ofText_regular hregular]
        rfl
      have hfile := hsegments ▸ hdirLeads.append hstep
      exact isFile_of_leads hplain hrooted.straight hfile

end Tree
end LintMerge
