/-
# Faults of a configuration that is loaded

The places of configuration are looked up in one order, and the first that leads to a file is the
only one that is read (`Config.loadBy_eq_error`). What is wrong with the file is told as a fault of
the configuration that names the file, whatever the file holds, but for two faults of the reader:
octets that are no text, and an integer with too many digits. A place that is too long to be looked
up is a third that is no fault of the configuration. These are all (`Config.loadBy_error_iff`), and
each does occur (`Config.not_isOfConfig`).
-/

import LintMerge.Config.Locate
import LintMerge.Proofs.Check.Outcome
import LintMerge.Proofs.Toml.LongNumbers
import LintMerge.Proofs.Tree.FirstFile

namespace LintMerge

namespace Config

variable {read : Reading} {t : Tree} {root path : Path} {f : LoadFault}

/-- The places at which configuration is looked for. -/
def places (root : Path) : List Path :=
  (files.map fun name => root.join (Path.ofText name)) ++ [root.child manifest]

/-- Of two rows of places the second is looked up when the first leads to no file. -/
theorem firstFile_append (t : Tree) (ps qs : List Path) :
    firstFile t (ps ++ qs) = firstFile t ps >>= fun
      | some path => .ok (some path)
      | none => firstFile t qs := by
  rw [firstFile, Tree.firstFile_append, firstFile]
  cases t.firstFile ps with
  | error p => rfl
  | ok found => cases found <;> rfl

theorem tooLong_of_firstFile {paths : List Path} {f : LoadFault} (h : firstFile t paths = .error f) :
    ∃ p ∈ paths, t.isTooLong p = true ∧ f = .tooLong p := by
  obtain ⟨p, hp, rfl⟩ := Faulty.mapError_eq_error.1 h
  obtain ⟨hmem, hlong⟩ := Tree.isTooLong_of_firstFile hp
  exact ⟨p, hmem, hlong, rfl⟩

/-- What can be wrong with a file before it is known to be a document. -/
inductive Unread (read : Reading) (path : Path) : LoadFault → Prop where
  | unreadable {reason : String} (hread : read path = .error reason) :
      Unread read path (.unreadable path reason)
  | notText {octets : List UInt8} {fault : Text.Utf8.Fault} (hread : read path = .ok octets)
      (hdecode : Text.Utf8.decode octets = .error fault) : Unread read path (.notText fault)
  | tooManyDigits {octets : List UInt8} {s : List Char} {n : Nat} (hread : read path = .ok octets)
      (hdecode : Text.Utf8.decode octets = .ok s)
      (hentries : Toml.entries (Toml.unifyLines s) = .error (.tooManyDigits n)) :
      Unread read path (.tooManyDigits n)
  | badToml {octets : List UInt8} {s : List Char} {cause : Toml.Cause} {remaining : Nat}
      (hread : read path = .ok octets) (hdecode : Text.Utf8.decode octets = .ok s)
      (hentries : Toml.entries (Toml.unifyLines s) = .error (.malformed cause remaining)) :
      Unread read path
        (.badToml path ((Toml.Fault.malformed cause remaining).message (Toml.unifyLines s)))

/-- **A file is not read** for one of these reasons. -/
theorem readFile_eq_error_iff : readFile read path = .error f ↔ Unread read path f := by
  constructor
  · intro h
    rcases Faulty.bind_eq_error.1 h with h | ⟨octets, hread, h⟩
    · obtain ⟨reason, hread, rfl⟩ := Faulty.mapError_eq_error.1 h
      exact .unreadable hread
    · rw [Faulty.mapError_eq_ok] at hread
      rw [readToml] at h
      split at h
      · next hdecode =>
        cases h
        exact .notText hread hdecode
      · next s hdecode =>
        dsimp only at h
        split at h
        · cases h
        · next hentries =>
          cases h
          exact .tooManyDigits hread hdecode hentries
        · next fault hne hentries =>
          cases h
          cases fault with
          | malformed cause remaining => exact .badToml hread hdecode hentries
          | tooManyDigits n => exact absurd rfl (hne n)
  · have hread {octets : List UInt8} (hread : read path = .ok octets) :
        readFile read path = readToml path octets := by
      rw [readFile, hread]
      rfl
    intro h
    cases h with
    | unreadable hreason =>
      rw [readFile, hreason]
      rfl
    | notText hoctets hdecode => rw [hread hoctets, readToml, hdecode]
    | tooManyDigits hoctets hdecode hentries =>
      rw [hread hoctets, readToml, hdecode]
      dsimp only
      rw [hentries]
    | badToml hoctets hdecode hentries =>
      rw [hread hoctets, readToml, hdecode]
      dsimp only
      rw [hentries]

/-- A manifest is not read, or it has something else in the place of a table. -/
theorem section?_eq_error (h : section? read path = .error f) :
    Unread read path f ∨ f = .notATable path := by
  rcases Faulty.bind_eq_error.1 h with h | ⟨es, -, h⟩
  · exact .inl (readFile_eq_error_iff.1 h)
  · split at h
    · cases h
    · cases h
    · cases h
      exact .inr rfl

theorem section?_of_unread (h : Unread read path f) : section? read path = .error f :=
  Faulty.bind_eq_error.2 (.inl (readFile_eq_error_iff.2 h))

/-- The file that configures a project is the first that a place leads to. -/
theorem firstFile_of_findBy (h : findBy read t root = .ok (some path)) :
    firstFile t (places root) = .ok (some path) := by
  rw [places, firstFile_append]
  obtain ⟨own, hown, h⟩ := Faulty.bind_eq_ok.1 h
  rw [hown]
  cases own with
  | some p =>
    cases h
    rfl
  | none =>
    obtain ⟨named, hnamed, h⟩ := Faulty.bind_eq_ok.1 h
    cases named with
    | none => cases h
    | some p =>
      obtain ⟨found, -, h⟩ := Faulty.bind_eq_ok.1 h
      cases found with
      | none => cases h
      | some es =>
        cases h
        exact hnamed

/-- Looking for the file that configures a project fails at a place, or at the manifest. -/
theorem findBy_eq_error (h : findBy read t root = .error f) : firstFile t (places root) = .error f ∨
    ∃ path, firstFile t (places root) = .ok (some path) ∧ section? read path = .error f := by
  rw [places, firstFile_append]
  rcases Faulty.bind_eq_error.1 h with h | ⟨own, hown, h⟩
  · rw [h]
    exact .inl rfl
  · rw [hown]
    cases own with
    | some p => cases h
    | none =>
      rcases Faulty.bind_eq_error.1 h with h | ⟨named, hnamed, h⟩
      · exact .inl h
      · cases named with
        | none => cases h
        | some p =>
          rcases Faulty.bind_eq_error.1 h with h | ⟨_, -, h⟩
          · exact .inr ⟨p, hnamed, h⟩
          · cases h

/-- Entries are refused with what is wrong with them, each a fault. -/
theorem exists_faults_of_ofEntries {source message : String} {es : List (String × Value)}
    (h : ofEntries source es = .error message) : ∃ faults, message = invalidMessage source faults := by
  rw [ofEntries] at h
  split at h
  · cases h
  · cases h
    exact ⟨_, rfl⟩

/-- **A configuration is not loaded** for a place that cannot be looked up, or for the first file
that a place leads to. -/
theorem loadBy_eq_error (h : loadBy read t root = .error f) : firstFile t (places root) = .error f ∨
    ∃ path, firstFile t (places root) = .ok (some path) ∧
      (Unread read path f ∨ f = .notATable path ∨
        ∃ faults, f = .invalid (invalidMessage path.text faults)) := by
  rcases Faulty.bind_eq_error.1 h with h | ⟨found, hfound, h⟩
  · rcases findBy_eq_error h with h | ⟨path, hpath, h⟩
    · exact .inl h
    · exact .inr ⟨path, hpath, (section?_eq_error h).imp_right .inl⟩
  · cases found with
    | none => cases h
    | some path =>
      refine .inr ⟨path, firstFile_of_findBy hfound, ?_⟩
      have hmade (es : List (String × Value))
          (h : ((ofEntries path.text es).mapError .invalid >>= fun config =>
            pure { path := some path, config } : Except LoadFault LoadedConfig) = .error f) :
          ∃ faults, f = .invalid (invalidMessage path.text faults) := by
        rcases Faulty.bind_eq_error.1 h with h | ⟨_, -, h⟩
        · obtain ⟨message, hmessage, rfl⟩ := Faulty.mapError_eq_error.1 h
          obtain ⟨faults, rfl⟩ := exists_faults_of_ofEntries hmessage
          exact ⟨faults, rfl⟩
        · cases h
      dsimp only at h
      split at h
      · rcases Faulty.bind_eq_error.1 h with h | ⟨found, -, h⟩
        · exact (section?_eq_error h).imp_right .inl
        · exact .inr (.inr (hmade (found.getD []) h))
      · rcases Faulty.bind_eq_error.1 h with h | ⟨es, -, h⟩
        · exact .inl (readFile_eq_error_iff.1 h)
        · exact .inr (.inr (hmade es h))

/-- A place that cannot be looked up is not passed over. -/
theorem loadBy_of_firstFile (h : firstFile t (places root) = .error f) :
    loadBy read t root = .error f := by
  refine Faulty.bind_eq_error.2 (.inl ?_)
  rw [places, firstFile_append] at h
  rcases Faulty.bind_eq_error.1 h with h | ⟨own, hown, h⟩
  · exact Faulty.bind_eq_error.2 (.inl h)
  · cases own with
    | some p => cases h
    | none => exact Faulty.bind_eq_error.2 (.inr ⟨none, hown, Faulty.bind_eq_error.2 (.inl h)⟩)

/-- The first file that a place leads to is read, whatever the other places lead to. -/
theorem loadBy_of_unread (hpath : firstFile t (places root) = .ok (some path))
    (h : Unread read path f) : loadBy read t root = .error f := by
  rw [places, firstFile_append] at hpath
  obtain ⟨own, hown, hpath⟩ := Faulty.bind_eq_ok.1 hpath
  cases own with
  | some p =>
    cases hpath
    have hfound : findBy read t root = .ok (some path) :=
      Faulty.bind_eq_ok.2 ⟨some path, hown, rfl⟩
    refine Faulty.bind_eq_error.2 (.inr ⟨_, hfound, ?_⟩)
    dsimp only
    split
    · exact Faulty.bind_eq_error.2 (.inl (section?_of_unread h))
    · exact Faulty.bind_eq_error.2 (.inl (readFile_eq_error_iff.2 h))
  | none =>
    refine Faulty.bind_eq_error.2 (.inl ?_)
    refine Faulty.bind_eq_error.2 (.inr ⟨none, hown, ?_⟩)
    refine Faulty.bind_eq_error.2 (.inr ⟨some path, hpath, ?_⟩)
    exact Faulty.bind_eq_error.2 (.inl (section?_of_unread h))

/-- A path that is too long is one of the places at which configuration is looked for. -/
theorem tooLong_of_load {p : Path} (h : load t root = .error (.tooLong p)) :
    p ∈ places root ∧ t.isTooLong p = true := by
  rcases loadBy_eq_error h with h | ⟨path, -, h | h | ⟨_, h⟩⟩
  · obtain ⟨q, hq, hlong, hfault⟩ := tooLong_of_firstFile h
    cases hfault
    exact ⟨hq, hlong⟩
  · cases h
  · cases h
  · cases h

/-! ## What is told as a fault of the configuration -/

/-- What is said of a fault names a file. -/
def LoadFault.NamesFile (f : LoadFault) (path : Path) : Prop :=
  path.text.toList <:+: f.message.toList

theorem infix_append (before text after : String) :
    text.toList <:+: (before ++ text ++ after).toList := by
  rw [String.toList_append, String.toList_append]
  exact ⟨before.toList, after.toList, rfl⟩

/-- A message that goes on after the name names the file too. -/
theorem infix_append_append (before text between after : String) :
    text.toList <:+: (before ++ text ++ between ++ after).toList := by
  rw [String.append_assoc]
  exact infix_append _ _ _

theorem namesFile_notATable (path : Path) : (LoadFault.notATable path).NamesFile path :=
  infix_append _ _ _

theorem namesFile_invalid (path : Path) (faults : List Check.Fault) :
    (LoadFault.invalid (invalidMessage path.text faults)).NamesFile path :=
  infix_append_append _ _ _ _

/-- What is wrong with a file that is not read is told with its name, if it is told as a fault of
the configuration. -/
theorem Unread.namesFile (h : Unread read path f) (hf : f.isOfConfig = true) : f.NamesFile path := by
  cases h with
  | unreadable _ => exact infix_append_append _ _ _ _
  | notText _ _ => cases hf
  | tooManyDigits _ _ _ => cases hf
  | badToml _ _ _ => exact infix_append_append _ _ _ _

/-- The faults that are not told as ones of the configuration. -/
inductive Escapes (read : Reading) (t : Tree) (root : Path) : LoadFault → Prop where
  /-- a place has a path that is too long -/
  | tooLong {p : Path} (hplace : firstFile t (places root) = .error (.tooLong p))
      (hlong : t.isTooLong p = true) : Escapes read t root (.tooLong p)
  /-- the octets of the file are no text -/
  | notText {path : Path} {octets : List UInt8} {fault : Text.Utf8.Fault}
      (hpath : firstFile t (places root) = .ok (some path)) (hread : read path = .ok octets)
      (hdecode : Text.Utf8.decode octets = .error fault) : Escapes read t root (.notText fault)
  /-- an integer of the file has too many digits -/
  | tooManyDigits {path : Path} {octets : List UInt8} {s : List Char} {n : Nat}
      (hpath : firstFile t (places root) = .ok (some path)) (hread : read path = .ok octets)
      (hdecode : Text.Utf8.decode octets = .ok s)
      (hentries : Toml.entries (Toml.unifyLines s) = .error (.tooManyDigits n))
      (hrow : Toml.HasLongRow n (Toml.unifyLines s)) : Escapes read t root (.tooManyDigits n)

theorem Escapes.isOfConfig_eq_false (h : Escapes read t root f) : f.isOfConfig = false := by
  cases h <;> rfl

theorem Escapes.loadBy_eq (h : Escapes read t root f) : loadBy read t root = .error f := by
  cases h with
  | tooLong hplace _ => exact loadBy_of_firstFile hplace
  | notText hpath hread hdecode => exact loadBy_of_unread hpath (.notText hread hdecode)
  | tooManyDigits hpath hread hdecode hentries _ =>
    exact loadBy_of_unread hpath (.tooManyDigits hread hdecode hentries)

/-- **What is wrong with a configuration** is told as a fault of the configuration, with the name of
the file that was read, unless it is one of the faults listed; and those are never told so. -/
theorem loadBy_error_iff (read : Reading) (t : Tree) (root : Path) (f : LoadFault) :
    (loadBy read t root = .error f → f.isOfConfig = true →
      ∃ path, firstFile t (places root) = .ok (some path) ∧ f.NamesFile path) ∧
    (loadBy read t root = .error f ∧ f.isOfConfig = false ↔ Escapes read t root f) := by
  refine ⟨fun h hf => ?_, fun ⟨h, hf⟩ => ?_, fun h => ⟨h.loadBy_eq, h.isOfConfig_eq_false⟩⟩
  · rcases loadBy_eq_error h with h | ⟨path, hpath, h | rfl | ⟨faults, rfl⟩⟩
    · obtain ⟨_, _, _, rfl⟩ := tooLong_of_firstFile h
      cases hf
    · exact ⟨path, hpath, h.namesFile hf⟩
    · exact ⟨path, hpath, namesFile_notATable path⟩
    · exact ⟨path, hpath, namesFile_invalid path faults⟩
  · rcases loadBy_eq_error h with h | ⟨path, hpath, h | rfl | ⟨_, rfl⟩⟩
    · obtain ⟨p, _, hlong, rfl⟩ := tooLong_of_firstFile h
      exact .tooLong h hlong
    · cases h with
      | unreadable _ => cases hf
      | notText hread hdecode => exact .notText hpath hread hdecode
      | tooManyDigits hread hdecode hentries =>
        exact .tooManyDigits hpath hread hdecode hentries (Toml.hasLongRow_of_entries hentries)
      | badToml _ _ _ => cases hf
    · cases hf
    · cases hf

/-- **An octet that starts no character** is not told as a fault of the configuration. -/
theorem not_isOfConfig : ∃ (t : Tree) (f : LoadFault),
    load t ⟨1, []⟩ = .error f ∧ f.isOfConfig = false :=
  ⟨⟨.folder [("lintmesh.toml", .file [0xFF] false)]⟩, .notText ⟨.badStart, 0, 1, 0xFF⟩,
    by decide +kernel, rfl⟩

end Config
end LintMerge
