/-
# What a project declares

The packages of a project are the keys of two tables of its manifest (`Manifest.Declares`). A
manifest that is no file, no text, no document or no table declares none. For two faults it is not
known what the project declares (`Manifest.Breaks`): the path of the manifest is too long, or an
integer in it has too many digits. These are all (`Manifest.declaredVia_error_iff`), and they are
the only ones for which a manifest keeps the commands that find out about linters from their work;
all other faults are those of a linter that is looked up or asked for its version
(`Command.declared_tolerated`).
-/

import LintMerge.Batch.Options
import LintMerge.Command.Detect
import LintMerge.Command.Init
import LintMerge.Proofs.Check.Outcome
import LintMerge.Proofs.Json.LongNumbers
import LintMerge.Proofs.Process.Course
import LintMerge.Proofs.Text.Boundaries
import LintMerge.Proofs.Tree.Lookup

namespace LintMerge

namespace Manifest

variable {read : Reading} {t : Tree} {root : Path} {v : Value} {es : List (String × Value)}
  {names : List String} {name : String} {f : Fault}

/-- The entries of a manifest declare a package: it is a key of one of the tables for packages. -/
def Declares (es : List (String × Value)) (name : String) : Prop :=
  ∃ key ∈ sections, ∃ packages, Value.lookup key es = some (.table packages) ∧
    name ∈ packages.map (·.1)

/-- The manifest of a project is a document. -/
def IsDocument (read : Reading) (t : Tree) (root : Path) (v : Value) : Prop :=
  t.isFile (root.child fileName) = true ∧ ∃ octets s, read (root.child fileName) = .ok octets ∧
    Text.Utf8.decode octets = .ok s ∧ Json.document s = .ok v

/-- Why it cannot be known what a project declares. -/
inductive Breaks (read : Reading) (t : Tree) (root : Path) : Fault → Prop where
  /-- the path of the manifest is too long -/
  | tooLong (hlong : t.isTooLong (root.child fileName) = true) :
      Breaks read t root (.tooLong (root.child fileName))
  /-- the manifest is a text in which an integer has too many digits, which stand in it in a row -/
  | tooManyDigits {octets : List UInt8} {s : List Char} {n : Nat}
      (hfile : t.isFile (root.child fileName) = true)
      (hread : read (root.child fileName) = .ok octets) (hdecode : Text.Utf8.decode octets = .ok s)
      (hdocument : Json.document s = .error (.tooManyDigits n)) (hrow : Text.HasLongRow n s) :
      Breaks read t root (.tooManyDigits n)

theorem mem_keys : name ∈ keys v ↔ ∃ packages, v = .table packages ∧ name ∈ packages.map (·.1) := by
  cases v <;> simp [keys]

/-- What a document declares, declared by the table that it is. -/
theorem mem_declaredIn : name ∈ declaredIn v ↔ ∃ es, v = .table es ∧ Declares es name := by
  rw [declaredIn, inOrder, (List.mergeSort_perm _ _).mem_iff, List.mem_eraseDups, List.mem_flatMap]
  constructor
  · rintro ⟨key, hkey, hname⟩
    obtain ⟨packages, hfield, hpackages⟩ := mem_keys.1 hname
    cases v with
    | table es =>
      refine ⟨es, rfl, key, hkey, packages, ?_, hpackages⟩
      rw [Value.field] at hfield
      cases hlookup : Value.lookup key es with
      | none => rw [hlookup] at hfield; cases hfield
      | some w => rw [hlookup] at hfield; rw [← hfield, Option.getD_some]
    | _ => cases hfield
  · rintro ⟨es, rfl, key, hkey, packages, hlookup, hname⟩
    exact ⟨key, hkey, mem_keys.2 ⟨packages, by rw [Value.field, hlookup, Option.getD_some], hname⟩⟩

theorem nodup_declaredIn (v : Value) : (declaredIn v).Nodup :=
  (List.mergeSort_perm _ _).nodup_iff.2 (Batch.nodup_eraseDups _)

/-- A document is what the manifest is in one way only. -/
theorem IsDocument.unique {v' : Value} (h : IsDocument read t root v) (h' : IsDocument read t root v') :
    v = v' := by
  obtain ⟨-, octets, s, hread, hdecode, hdocument⟩ := h
  obtain ⟨-, octets', s', hread', hdecode', hdocument'⟩ := h'
  cases hread.symm.trans hread'
  cases hdecode.symm.trans hdecode'
  cases hdocument.symm.trans hdocument'
  rfl

/-- What is declared where the manifest is a file that can be read. -/
theorem declaredVia_of_read {octets : List UInt8} (hfile : t.isFile (root.child fileName) = true)
    (hread : read (root.child fileName) = .ok octets) : declaredVia read t root = declaredBy octets := by
  rw [declaredVia, Tree.isTooLong_of_isFile hfile, hfile, hread]
  rfl

theorem declaredVia_of_breaks (h : Breaks read t root f) : declaredVia read t root = .error f := by
  cases h with
  | tooLong hlong => exact if_pos hlong
  | tooManyDigits hfile hread hdecode hdocument _ =>
    rw [declaredVia_of_read hfile hread, declaredBy, hdecode]
    simp only [hdocument]

/-- What a project declares is told by the document that its manifest is, or it is nothing, or the
manifest breaks. -/
theorem declaredVia_cases (read : Reading) (t : Tree) (root : Path) :
    (∃ v, IsDocument read t root v ∧ declaredVia read t root = .ok (declaredIn v)) ∨
      (∃ f, Breaks read t root f) ∨
      (∀ v, ¬ IsDocument read t root v) ∧ declaredVia read t root = .ok [] := by
  cases hlong : t.isTooLong (root.child fileName) with
  | true => exact .inr (.inl ⟨_, .tooLong hlong⟩)
  | false =>
    cases hfile : t.isFile (root.child fileName) with
    | false =>
      refine .inr (.inr ⟨fun v hv => ?_, ?_⟩)
      · cases hfile.symm.trans hv.1
      · rw [declaredVia, hlong, hfile]
        rfl
    | true =>
      cases hread : read (root.child fileName) with
      | error reason =>
        refine .inr (.inr ⟨?_, ?_⟩)
        · rintro v ⟨-, octets, s, hoctets, -⟩
          cases hread.symm.trans hoctets
        · rw [declaredVia, hlong, hfile, hread]
          rfl
      | ok octets =>
        rw [declaredVia_of_read hfile hread, declaredBy]
        cases hdecode : Text.Utf8.decode octets with
        | error e =>
          refine .inr (.inr ⟨?_, rfl⟩)
          rintro v ⟨-, octets', s, hoctets, hs, -⟩
          cases hread.symm.trans hoctets
          cases hdecode.symm.trans hs
        | ok s =>
          cases hdocument : Json.document s with
          | ok v => exact .inl ⟨v, ⟨hfile, octets, s, hread, hdecode, hdocument⟩, by simp only [hdocument]⟩
          | error e =>
            cases e with
            | tooManyDigits n =>
              exact .inr (.inl ⟨_, .tooManyDigits hfile hread hdecode hdocument
                (Json.hasLongRow_of_document hdocument)⟩)
            | malformed cause remaining =>
              refine .inr (.inr ⟨?_, by simp only [hdocument]⟩)
              rintro v ⟨-, octets', s', hoctets, hs, hv⟩
              cases hread.symm.trans hoctets
              cases hdecode.symm.trans hs
              cases hdocument.symm.trans hv

theorem declaredVia_error_iff : declaredVia read t root = .error f ↔ Breaks read t root f := by
  refine ⟨fun h => ?_, declaredVia_of_breaks⟩
  rcases declaredVia_cases read t root with ⟨v, -, hv⟩ | ⟨g, hg⟩ | ⟨-, hnone⟩
  · cases h.symm.trans hv
  · cases h.symm.trans (declaredVia_of_breaks hg)
    exact hg
  · cases h.symm.trans hnone

/-- The packages that are declared are those of the document, each once. -/
theorem mem_of_declaredVia (h : declaredVia read t root = .ok names) :
    names.Nodup ∧ ∀ name, name ∈ names ↔
      ∃ es, IsDocument read t root (.table es) ∧ Declares es name := by
  rcases declaredVia_cases read t root with ⟨v, hv, hnames⟩ | ⟨g, hg⟩ | ⟨hno, hnames⟩
  · cases h.symm.trans hnames
    refine ⟨nodup_declaredIn v, fun name => mem_declaredIn.trans ⟨?_, ?_⟩⟩
    · rintro ⟨es, rfl, hdeclares⟩
      exact ⟨es, hv, hdeclares⟩
    · rintro ⟨es, hes, hdeclares⟩
      exact ⟨es, hv.unique hes, hdeclares⟩
  · cases h.symm.trans (declaredVia_of_breaks hg)
  · cases h.symm.trans hnames
    refine ⟨List.nodup_nil, fun name => iff_of_false List.not_mem_nil ?_⟩
    rintro ⟨es, hes, -⟩
    exact hno _ hes

end Manifest

namespace Detection

variable {h : Host} {root : Path} {packages : List String} {l : Linter} {r : Runner} {f : Attempt.Fault}

/-- Why it cannot be found out about a linter: it cannot be looked up, or its program cannot be asked
for its version. -/
inductive Fails (h : Host) (root : Path) (r : Runner) (l : Linter) : Attempt.Fault → Prop where
  | lookUp {f : Attempt.Fault} (hfault : Detection.lookUp h root l = .error f) : Fails h root r l f
  | probe {f : Attempt.Fault} {p : Program} {config : Option Path}
      (hfound : Detection.lookUp h root l = .ok (some p, config))
      (hprobe : (Attempt.probe l root p).MayEnd r (.error f)) : Fails h root r l f

/-- What is known of a linter does not fail for what the project declares. -/
theorem ensures_detect (h : Host) (root : Path) (packages : List String) (l : Linter) :
    (detect h root packages l).Ensures r fun x => ∀ f, x = .error f → Fails h root r l f := by
  rw [detect]
  split
  · next f hfault =>
    rintro _ ⟨⟩
    exact .lookUp hfault
  · rintro _ ⟨⟩
  · next p config hfound =>
    refine (Job.ensures_mayEnd _).bind fun answer hanswer => ?_
    rintro f hf
    cases answer with
    | error g =>
      cases hf
      exact .probe hfound hanswer
    | ok o => cases hf

/-- Of a row of outcomes that come to a fault one is the fault. -/
theorem exists_of_mapM_id {α β : Type} {P : β → Except Attempt.Fault α → Prop} {bs : List β}
    {xs : List (Except Attempt.Fault α)} (hxs : List.Forall₂ P bs xs) (hf : xs.mapM id = .error f) :
    ∃ b, P b (.error f) := by
  induction hxs with
  | nil => cases hf
  | cons hx _ ih =>
    rw [List.mapM_cons] at hf
    rcases Faulty.bind_eq_error.1 hf with rfl | ⟨d, -, hf⟩
    · exact ⟨_, hx⟩
    · rcases Faulty.bind_eq_error.1 hf with hf | ⟨ds, -, hds⟩
      · exact ih hf
      · cases hds

/-- It is not found out about all linters if the manifest breaks, or for a linter. -/
theorem ensures_detectAll (h : Host) (root : Path) :
    (detectAll h root).Ensures r fun x => ∀ f, x = .error f →
      (∃ g, Manifest.Breaks h.tree.contents h.tree root g ∧ f = manifestFault g) ∨
        ∃ l, Fails h root r l f := by
  rw [detectAll]
  split
  · next g hg =>
    rintro _ ⟨⟩
    exact .inl ⟨g, Manifest.declaredVia_error_iff.1 hg, rfl⟩
  · next packages _ =>
    refine (Job.ensures_inTurn fun l _ => ensures_detect h root packages l).bind fun found hfound => ?_
    intro f hf
    obtain ⟨l, hl⟩ := exists_of_mapM_id hfound hf
    exact .inr ⟨l, hl f rfl⟩

theorem detectAll_of_breaks {g : Manifest.Fault}
    (hbreaks : Manifest.Breaks h.tree.contents h.tree root g) :
    detectAll h root = .done (.error (manifestFault g)) := by
  rw [detectAll, show Manifest.declared h.tree root = _ from Manifest.declaredVia_of_breaks hbreaks]

end Detection

namespace Command

variable {h : Host} {workDir root : Path} {cwd : Option String} {force : Bool} {r : Runner}
  {g : Manifest.Fault}

/-- What keeps a command from its work is a manifest that breaks, or what is found out about a
linter. -/
def Excused (h : Host) (root : Path) (r : Runner) (e : Ending) : Prop :=
  ∀ f, e.unhandled = some (.attempt f) →
    (∃ g, Manifest.Breaks h.tree.contents h.tree root g ∧ f = Detection.manifestFault g) ∨
      ∃ l, Detection.Fails h root r l f

theorem excused_of_none {e : Ending} (he : e.unhandled = none) : Excused h root r e := fun f hf => by
  cases he.symm.trans hf

theorem ensures_detect (hroot : rootOf h workDir cwd = .ok root) :
    (detect h workDir cwd).Ensures r (Excused h root r) := by
  rw [detect, hroot]
  refine (Detection.ensures_detectAll h root).bind fun x hx => ?_
  cases x with
  | error f =>
    rintro _ ⟨⟩
    exact hx f rfl
  | ok ds =>
    dsimp only
    split
    · rintro _ ⟨⟩
    · exact excused_of_none rfl

/-- On a course it is found out about all linters, and no program is called after that. -/
def Detected (h : Host) (root : Path) (r : Runner) (ss : List (Job.Step Event)) (ds : List Detection) :
    Prop :=
  ∃ ss₁ ss₂, ss = ss₁ ++ ss₂ ∧ (Detection.detectAll h root).Course r ss₁ (.ok ds) ∧ Job.calls ss₂ = []

/-- How a course of the command that writes a configuration comes to its end: without writing one, or
by writing the one for what was detected. -/
inductive Concludes (h : Host) (root : Path) (r : Runner) (ss : List (Job.Step Event)) (e : Ending) :
    Prop where
  | stopped (hstatus : e.status ≠ 0) (htree : e.tree = none) (hexcused : Excused h root r e)
  | wrote {ds : List Detection} {t : Tree} (hds : Detected h root r ss ds)
      (hlong : h.tree.isTooLong (root.child configName) = false)
      (hw : writeText h.tree (root.child configName) (Config.template (enabledIn ds)) = .ok t)
      (he : e = { status := 0, tree := some t })

theorem Concludes.excused {ss : List (Job.Step Event)} {e : Ending} (hc : Concludes h root r ss e) :
    Excused h root r e := by
  cases hc with
  | stopped _ _ hexcused => exact hexcused
  | wrote _ _ _ he => exact excused_of_none (he ▸ rfl)

theorem concludes_of_told {message : String} {ss ss' : List (Job.Step Event)} {e : Ending}
    (hc : (Stop.told message).finish.Course r ss' e) : Concludes h root r ss e := by
  obtain ⟨_, -, hc⟩ := Job.course_tell.1 hc
  obtain ⟨-, rfl⟩ := Job.course_done.1 hc
  exact .stopped (Nat.succ_ne_zero 1) rfl (excused_of_none rfl)

/-- **Each course of the command** comes to one of these ends. -/
theorem concludes_of_course (hroot : rootOf h workDir cwd = .ok root) {ss : List (Job.Step Event)}
    {e : Ending} (hc : (init h workDir force cwd).Course r ss e) : Concludes h root r ss e := by
  rw [init, hroot] at hc
  dsimp only at hc
  split at hc
  · obtain ⟨-, rfl⟩ := Job.course_done.1 hc
    exact .stopped Nat.one_ne_zero rfl fun f hf => by cases hf
  · next hlong =>
    split at hc
    · exact concludes_of_told hc
    · obtain ⟨ss₁, ss₂, x, rfl, hx, hc⟩ := Job.course_bind.1 hc
      cases x with
      | error f =>
        obtain ⟨-, rfl⟩ := Job.course_done.1 hc
        refine .stopped Nat.one_ne_zero rfl ?_
        rintro _ ⟨⟩
        exact hx.mayEnd.of_ensures (Detection.ensures_detectAll h root) f rfl
      | ok ds =>
        dsimp only at hc
        rw [writeConfig] at hc
        split at hc
        · exact concludes_of_told hc
        · next t hw =>
          obtain ⟨_, rfl, htold⟩ := Job.course_tell.1 hc
          obtain ⟨_, rfl, hdone⟩ := Job.course_tell.1 htold
          obtain ⟨rfl, rfl⟩ := Job.course_done.1 hdone
          exact .wrote ⟨ss₁, _, rfl, hx, rfl⟩ (Bool.eq_false_iff.2 hlong) hw rfl

theorem detect_of_breaks (hroot : rootOf h workDir cwd = .ok root)
    (hbreaks : Manifest.Breaks h.tree.contents h.tree root g) :
    detect h workDir cwd = .done (.ofUnhandled (.attempt (Detection.manifestFault g))) := by
  rw [detect, hroot]
  dsimp only
  rw [Detection.detectAll_of_breaks hbreaks]
  rfl

theorem init_of_breaks (hroot : rootOf h workDir cwd = .ok root)
    (hlong : h.tree.isTooLong (root.child configName) = false)
    (hfree : (h.tree.holds (root.child configName) && !force) = false)
    (hbreaks : Manifest.Breaks h.tree.contents h.tree root g) :
    init h workDir force cwd = .done (.ofUnhandled (.attempt (Detection.manifestFault g))) := by
  rw [init, hroot]
  dsimp only
  rw [hlong, hfree, Detection.detectAll_of_breaks hbreaks]
  rfl

/-- **A manifest is tolerated, but for two faults.** The packages that a project declares are the keys
of the tables for packages if its manifest is a document that is a table, and there are none
otherwise; it is not known which they are exactly if the manifest breaks. The commands that find out
about linters are kept from their work by a manifest that breaks, and by no other: whatever else they
do not handle comes of a linter that is looked up or asked for its version. -/
theorem declared_tolerated (read : Reading) (t : Tree) (root : Path) :
    (∀ names, Manifest.declaredVia read t root = .ok names → names.Nodup ∧ ∀ name, name ∈ names ↔
      ∃ es, Manifest.IsDocument read t root (.table es) ∧ Manifest.Declares es name) ∧
    (∀ g, Manifest.declaredVia read t root = .error g ↔ Manifest.Breaks read t root g) ∧
    ∀ (h : Host) (workDir : Path) (force : Bool) (cwd : Option String) (r : Runner),
      rootOf h workDir cwd = .ok root →
      (∀ e, (detect h workDir cwd).MayEnd r e → Excused h root r e) ∧
      (∀ e, (init h workDir force cwd).MayEnd r e → Excused h root r e) ∧
      ∀ g, Manifest.Breaks h.tree.contents h.tree root g →
        detect h workDir cwd = .done (.ofUnhandled (.attempt (Detection.manifestFault g))) ∧
        (h.tree.isTooLong (root.child configName) = false →
          (h.tree.holds (root.child configName) && !force) = false →
          init h workDir force cwd = .done (.ofUnhandled (.attempt (Detection.manifestFault g)))) := by
  refine ⟨fun names => Manifest.mem_of_declaredVia, fun g => Manifest.declaredVia_error_iff,
    fun h workDir force cwd r hroot => ⟨fun e he => ?_, fun e he => ?_, fun g hbreaks => ⟨?_, ?_⟩⟩⟩
  · exact he.of_ensures (ensures_detect hroot)
  · obtain ⟨_, hc⟩ := Job.mayEnd_iff.1 he
    exact (concludes_of_course hroot hc).excused
  · exact detect_of_breaks hroot hbreaks
  · exact fun hlong hfree => init_of_breaks hroot hlong hfree hbreaks

namespace Sample

/-- A project whose manifest is a row of ones. -/
def ones (n : Nat) : Tree :=
  ⟨.folder [(Manifest.fileName, .file (Text.Utf8.encode (List.replicate n '1')) false)]⟩

end Sample

/-- A manifest that is a row of too many ones breaks. -/
theorem breaks_ones {n : Nat} (hn : Text.maxDigits < n) :
    Manifest.Breaks (Sample.ones n).contents (Sample.ones n) ⟨1, []⟩ (.tooManyDigits n) := by
  have hascii : Text.Utf8.IsAscii (List.replicate n '1') := by
    intro c hc
    rw [List.eq_of_mem_replicate hc]
    decide
  exact .tooManyDigits rfl rfl (Text.Utf8.decode_encode hascii) (Json.document_ones hn)
    (Json.hasLongRow_of_document (Json.document_ones hn))

/-- What `declared_tolerated` asks for does occur: the command that shows what is installed is kept
from its work by a number. -/
theorem declared_tolerated_ones :
    detect { tree := Sample.ones 4301, searchPath := [] } ⟨1, []⟩ none =
      .done (.ofUnhandled (.attempt (.tooManyDigits 4301))) :=
  (((declared_tolerated (Sample.ones 4301).contents (Sample.ones 4301) ⟨1, []⟩).2.2
    { tree := Sample.ones 4301, searchPath := [] } ⟨1, []⟩ false none (.exactly fun _ => .ok {})
    rfl).2.2 _ (breaks_ones (by decide))).1

/-- It is not so that it is known of every project what it declares. -/
theorem not_declared_ok : ¬ ∀ (t : Tree) (root : Path), ∃ names, Manifest.declared t root = .ok names := by
  intro hall
  obtain ⟨names, hnames⟩ := hall (Sample.ones 4301) ⟨1, []⟩
  have hbreaks : Manifest.Breaks (Sample.ones 4301).contents (Sample.ones 4301) ⟨1, []⟩
      (.tooManyDigits 4301) := breaks_ones (by decide)
  cases (Manifest.declaredVia_of_breaks hbreaks).symm.trans hnames

end Command
end LintMerge
