/-
# Files that are shadowed

Configuration is looked for at three places. What is loaded is a function of the first of them that
leads to a file, and of what is read there (`Config.loadBy_eq`): the place is found by looking up
alone, and then one file is read. So two states of a project in which this is the same have the
same outcome, a configuration or a fault, whatever the places after it hold
(`Config.loadBy_congr`); a broken file that comes later is never read.

The last place is a manifest, which has a table for configuration or has none. It is read before it
counts, and without the table it is as if it was not there (`Config.loadBy_shadowed`).
-/

import LintMerge.Proofs.Config.Loading

namespace LintMerge

namespace Config

variable {read read' : Reading} {t t' : Tree} {root path : Path} {es : List (String × Value)}

/-- The place of the file that comes first. -/
def ownPlace (root : Path) : Path := root.join (Path.ofText "lintmesh.toml")

/-- The place of the file that comes second. -/
def hiddenPlace (root : Path) : Path := root.join (Path.ofText ".config/lintmesh.toml")

theorem places_eq (root : Path) : places root = [ownPlace root, hiddenPlace root, root.child manifest] :=
  rfl

/-- The configuration that the entries of a file describe. -/
def loadEntries (path : Path) (es : List (String × Value)) : Except LoadFault LoadedConfig := do
  let config ← (ofEntries path.text es).mapError .invalid
  return { path := some path, config }

/-- What is loaded from one file, nothing if it is a manifest without a table for it. -/
def loadFile (read : Reading) (path : Path) : Except LoadFault LoadedConfig :=
  if path.name = manifest then do
    match ← section? read path with
    | some es => loadEntries path es
    | none => .ok {}
  else readFile read path >>= loadEntries path

theorem loadFile_congr (h : read path = read' path) : loadFile read path = loadFile read' path := by
  rw [loadFile, loadFile, section?, section?, readFile, readFile, h]

theorem name_child (root : Path) (segment : String) : (root.child segment).name = segment := by
  rw [Path.name, Path.child, List.getLast?_concat, Option.getD_some]

/-- The places that come first are those of no manifest. -/
theorem name_ne_manifest (hpath : path ∈ files.map fun name => root.join (Path.ofText name)) :
    path.name ≠ manifest := by
  have hname (segments : List String) : (root.join ⟨0, segments ++ ["lintmesh.toml"]⟩).name ≠ manifest := by
    have hjoin : (root.join ⟨0, segments ++ ["lintmesh.toml"]⟩).segments =
        root.segments ++ segments ++ ["lintmesh.toml"] := (List.append_assoc _ _ _).symm
    rw [Path.name, hjoin, List.getLast?_concat]
    decide
  obtain ⟨file, hfile, rfl⟩ := List.mem_map.1 hpath
  rcases List.mem_cons.1 hfile with rfl | hfile
  · exact hname []
  · rw [List.mem_singleton.1 hfile]
    exact hname [".config"]

/-- A file that is found is read as what it is. -/
theorem loadBy_of_findBy (h : findBy read t root = .ok (some path)) :
    loadBy read t root =
      if path.name = manifest then (section? read path >>= fun found => loadEntries path (found.getD []))
      else readFile read path >>= loadEntries path := by
  rw [loadBy, h]
  show (if path.name = manifest then section? read path >>= _ else readFile read path >>= _) = _
  rfl

/-- **One file is read.** The first place that leads to a file is found by looking up, and what is
loaded is what this file says. -/
theorem loadBy_eq (read : Reading) (t : Tree) (root : Path) :
    loadBy read t root = firstFile t (places root) >>= fun
      | some path => loadFile read path
      | none => .ok {} := by
  rw [places, firstFile_append]
  cases hown : firstFile t (files.map fun name => root.join (Path.ofText name)) with
  | error f => rw [loadBy, findBy, hown]; rfl
  | ok found =>
    cases found with
    | some path =>
      have hname : path.name ≠ manifest :=
        name_ne_manifest (Tree.mem_of_firstFile (Faulty.mapError_eq_ok.1 hown)).1
      have hfound : findBy read t root = .ok (some path) := by
        rw [findBy, hown]
        rfl
      show _ = loadFile read path
      rw [loadBy_of_findBy hfound, loadFile, if_neg hname, if_neg hname]
    | none =>
      cases hlast : firstFile t [root.child manifest] with
      | error f => rw [loadBy, findBy, hown, hlast]; rfl
      | ok found =>
        cases found with
        | none => rw [loadBy, findBy, hown, hlast]; rfl
        | some path =>
          have hpath : path = root.child manifest :=
            List.mem_singleton.1 (Tree.mem_of_firstFile (Faulty.mapError_eq_ok.1 hlast)).1
          have hname : path.name = manifest := hpath ▸ name_child root manifest
          have hfind : findBy read t root = (section? read path).map fun es => es.map fun _ => path := by
            rw [findBy, hown, hlast]
            show section? read path >>= _ = _
            cases section? read path <;> rfl
          show _ = loadFile read path
          rw [loadFile, if_pos hname]
          cases hsection : section? read path with
          | error f =>
            rw [loadBy, hfind, hsection]
            rfl
          | ok found =>
            rw [hsection] at hfind
            cases found with
            | none =>
              rw [loadBy, hfind]
              rfl
            | some es =>
              rw [loadBy_of_findBy hfind, if_pos hname, hsection]
              rfl

/-- **What is not read has no influence.** Two states of a project in which one file comes first
have the same outcome where the file is read alike. -/
theorem loadBy_congr (hplaces : firstFile t (places root) = firstFile t' (places root))
    (hread : ∀ path, firstFile t (places root) = .ok (some path) → read path = read' path) :
    loadBy read t root = loadBy read' t' root := by
  rw [loadBy_eq, loadBy_eq, ← hplaces]
  cases hfirst : firstFile t (places root) with
  | error f => rfl
  | ok found =>
    cases found with
    | none => rfl
    | some path => exact loadFile_congr (hread path hfirst)

/-- Two states of a project agree on a path: it is looked up alike in both, and the file to which
it leads is read alike. -/
structure Agree (read read' : Reading) (t t' : Tree) (p : Path) : Prop where
  looks : t.LooksAlike t' p
  reads : t.isFile p = true → read p = read' p

/-- **Places after a file are shadowed.** Two states of a project that agree on the places up to one
that leads to a file have the same outcome. -/
theorem loadBy_of_agree (before : List Path) {after : List Path} {p : Path}
    (hplaces : places root = before ++ p :: after)
    (hbefore : ∀ q ∈ before, Agree read read' t t' q) (hp : Agree read read' t t' p)
    (hfile : t.isFile p = true) : loadBy read t root = loadBy read' t' root := by
  have hagree : ∀ q ∈ before ++ [p], Agree read read' t t' q := by
    intro q hq
    rcases List.mem_append.1 hq with hq | hq
    · exact hbefore q hq
    · exact List.mem_singleton.1 hq ▸ hp
  have hfirst : t.firstFile (places root) = t.firstFile (before ++ [p]) := by
    rw [hplaces, Tree.firstFile_append_cons_of_isFile hfile]
  have hfirst' : t'.firstFile (places root) = t'.firstFile (before ++ [p]) := by
    rw [hplaces, Tree.firstFile_append_cons_of_isFile (hp.looks.2 ▸ hfile)]
  refine loadBy_congr ?_ fun path hpath => ?_
  · rw [firstFile, firstFile, hfirst, hfirst', Tree.firstFile_congr fun q hq => (hagree q hq).looks]
  · rw [firstFile, Faulty.mapError_eq_ok, hfirst] at hpath
    obtain ⟨hmem, hfound⟩ := Tree.mem_of_firstFile hpath
    exact (hagree path hmem).reads hfound

/-- The entries of a manifest hold a table for configuration. -/
def HasTable (es entries : List (String × Value)) : Prop :=
  ∃ tools, Value.lookup "tool" es = some (.table tools) ∧
    Value.lookup "lintmesh" tools = some (.table entries)

/-- The entries of a manifest hold nothing in the place of the table: there is no entry for tools, or
it is no table, or it is one without an entry for configuration. -/
def HasNoTable (es : List (String × Value)) : Prop :=
  ∀ tools, Value.lookup "tool" es = some (.table tools) → Value.lookup "lintmesh" tools = none

theorem section?_of_hasTable {entries : List (String × Value)} (hread : readFile read path = .ok es)
    (htable : HasTable es entries) : section? read path = .ok (some entries) := by
  obtain ⟨tools, htools, hentries⟩ := htable
  have hfield : ((Value.lookup "tool" es).getD .null).field "lintmesh" = .table entries := by
    rw [htools, Option.getD_some, Value.field, hentries, Option.getD_some]
  refine Faulty.bind_eq_ok.2 ⟨es, hread, ?_⟩
  rw [hfield]
  rfl

theorem section?_of_hasNoTable (hread : readFile read path = .ok es)
    (hnone : HasNoTable es) : section? read path = .ok none := by
  have hfield : ((Value.lookup "tool" es).getD .null).field "lintmesh" = .null := by
    cases htools : Value.lookup "tool" es with
    | none => rfl
    | some v =>
      cases v with
      | table tools => rw [Option.getD_some, Value.field, hnone tools htools, Option.getD_none]
      | _ => rfl
  refine Faulty.bind_eq_ok.2 ⟨es, hread, ?_⟩
  rw [hfield]
  rfl

/-- A manifest without a table for configuration counts for none. -/
theorem loadFile_of_hasNoTable (hname : path.name = manifest) (hread : readFile read path = .ok es)
    (hnone : HasNoTable es) : loadFile read path = .ok {} := by
  rw [loadFile, if_pos hname, section?_of_hasNoTable hread hnone]
  rfl

/-- An empty table is a configuration in which nothing is set. -/
theorem loadFile_of_hasTable (hname : path.name = manifest) (hread : readFile read path = .ok es)
    (htable : HasTable es []) : loadFile read path = .ok { path := some path } := by
  rw [loadFile, if_pos hname, section?_of_hasTable hread htable]
  rfl

/-- **Shadowed files have no influence.** Two states of a project that agree on the first place have
the same outcome if it leads to a file, and so have two that agree on the first and the second place
if the second leads to a file. If neither does, a manifest that is a document without a table for
configuration counts for no file at all, which is an empty configuration; and an empty table is loaded
as a configuration of the manifest in which nothing is set. -/
theorem loadBy_shadowed (read read' : Reading) (t t' : Tree) (root : Path) :
    (Agree read read' t t' (ownPlace root) → t.isFile (ownPlace root) = true →
      loadBy read t root = loadBy read' t' root) ∧
    (Agree read read' t t' (ownPlace root) → Agree read read' t t' (hiddenPlace root) →
      t.isFile (hiddenPlace root) = true → loadBy read t root = loadBy read' t' root) ∧
    (Agree read read' t t' (ownPlace root) → Agree read read' t t' (hiddenPlace root) →
      t.isFile (ownPlace root) = false → t.isFile (hiddenPlace root) = false →
      t'.Lacks (root.child manifest) → t.isFile (root.child manifest) = true →
      ∀ es, readFile read (root.child manifest) = .ok es → HasNoTable es →
        loadBy read t root = loadBy read' t' root) ∧
    ((∀ p ∈ places root, t.Lacks p) → loadBy read t root = .ok {}) ∧
    (t.Lacks (ownPlace root) → t.Lacks (hiddenPlace root) → t.isFile (root.child manifest) = true →
      ∀ es, readFile read (root.child manifest) = .ok es → HasTable es [] →
        loadBy read t root = .ok { path := some (root.child manifest) }) := by
  have hname : (root.child manifest).name = manifest := name_child root manifest
  refine ⟨fun hown hfile => ?_, fun hown hhidden hfile => ?_, ?_, fun hlacks => ?_, ?_⟩
  · exact loadBy_of_agree [] (places_eq root) (List.forall_mem_nil _) hown hfile
  · exact loadBy_of_agree [ownPlace root] (places_eq root) (List.forall_mem_singleton.2 hown) hhidden hfile
  · intro hown hhidden hownFile hhiddenFile hlacks hfile es hread hnone
    have hsame : t.firstFile [ownPlace root, hiddenPlace root] =
        t'.firstFile [ownPlace root, hiddenPlace root] := by
      refine Tree.firstFile_congr fun p hp => ?_
      rcases List.mem_cons.1 hp with rfl | hp
      · exact hown.looks
      · exact List.mem_singleton.1 hp ▸ hhidden.looks
    have hplaces : places root = [ownPlace root, hiddenPlace root] ++ [root.child manifest] := rfl
    rw [loadBy_eq, loadBy_eq, firstFile, firstFile, hplaces, Tree.firstFile_append,
      Tree.firstFile_append, ← hsame, Tree.firstFile_cons_of_isFile hfile, hlacks.firstFile_cons]
    cases hfirst : t.firstFile [ownPlace root, hiddenPlace root] with
    | error p => rfl
    | ok found =>
      cases found with
      | none => exact loadFile_of_hasNoTable hname hread hnone
      | some p =>
        obtain ⟨hmem, hfound⟩ := Tree.mem_of_firstFile hfirst
        rcases List.mem_cons.1 hmem with rfl | hmem
        · cases hfound.symm.trans hownFile
        · cases List.mem_singleton.1 hmem
          cases hfound.symm.trans hhiddenFile
  · rw [places_eq] at hlacks
    obtain ⟨hown, hrest⟩ := List.forall_mem_cons.1 hlacks
    obtain ⟨hhidden, hrest⟩ := List.forall_mem_cons.1 hrest
    rw [loadBy_eq, firstFile, places_eq, hown.firstFile_cons, hhidden.firstFile_cons,
      (List.forall_mem_singleton.1 hrest).firstFile_cons]
    rfl
  · intro hown hhidden hfile es hread htable
    rw [loadBy_eq, firstFile, places_eq, hown.firstFile_cons, hhidden.firstFile_cons,
      Tree.firstFile_cons_of_isFile hfile]
    exact loadFile_of_hasTable hname hread htable

namespace Sample

/-- A file that comes first, and a manifest that is no text. -/
def broken : Tree := ⟨.folder [("lintmesh.toml", .file [] false), (manifest, .file [0xFF] false)]⟩

/-- The same file alone. -/
def alone : Tree := ⟨.folder [("lintmesh.toml", .file [] false)]⟩

/-- A manifest alone, with an empty table for configuration. -/
def tabled : Tree := ⟨.folder [(manifest, .file "[tool.lintmesh]".toUTF8.toList false)]⟩

theorem agree_own : Agree broken.contents alone.contents broken alone (ownPlace ⟨1, []⟩) where
  looks := by decide +kernel
  reads _ := by decide +kernel

end Sample

/-- What `loadBy_shadowed` asks for does occur: a manifest that is no text is shadowed by a file that
comes first, and one that has an empty table is loaded. -/
theorem loadBy_shadowed_sample :
    load Sample.broken ⟨1, []⟩ = load Sample.alone ⟨1, []⟩ ∧
    load Sample.tabled ⟨1, []⟩ = .ok { path := some ⟨1, [manifest]⟩ } := by
  have hread : readFile Sample.tabled.contents ⟨1, [manifest]⟩ =
      .ok [("tool", .table [("lintmesh", .table [])])] := by
    with_unfolding_all rfl
  exact ⟨(loadBy_shadowed _ _ _ _ _).1 Sample.agree_own (by decide +kernel),
    (loadBy_shadowed Sample.tabled.contents Sample.tabled.contents _ Sample.tabled ⟨1, []⟩).2.2.2.2
      (by decide +kernel) (by decide +kernel) (by decide +kernel) _ hread ⟨_, rfl, rfl⟩⟩

end Config
end LintMerge
