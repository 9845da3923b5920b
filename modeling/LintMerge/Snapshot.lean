/-
# Snapshots of a project

A snapshot is a JSON document that holds a project: the files below a folder, the
folders along which programs are searched, and the folder that commands work in. A
file is given by its text, by an object with its text and whether it can be run, or
by the target of a link; null makes a folder. Reports bear the moment at which the
snapshot was taken.
-/

import LintMerge.Json.Reader
import LintMerge.Linter.Program
import LintMerge.Text.Utf8
import LintMerge.Time.Stamp

namespace LintMerge

/-- A project that commands can be carried out over. -/
structure Snapshot where
  host : Host
  workDir : Path
  taken : Stamp

namespace Snapshot

/-- The node that a value describes. -/
def node : Value → Node
  | .text s => .file (Text.Utf8.encode s.toList) false
  | .table es =>
    match Value.lookup "link" es, Value.lookup "text" es, Value.lookup "exec" es with
    | some (.text target), _, _ => .link target
    | _, some (.text s), exec => .file (Text.Utf8.encode s.toList) (isTrue exec)
    | _, _, exec => .file [] (isTrue exec)
  | _ => .folder []
where
  /-- Whether an entry is there and true. -/
  isTrue : Option Value → Bool
    | some (.bool b) => b
    | _ => false

/-- The texts of a list. -/
def texts : Value → List String
  | .list vs => vs.filterMap fun
    | .text s => some s
    | _ => none
  | _ => []

/-- The tree of some entries, each a path as seen from a folder. -/
def tree (folder : Path) (entries : List (String × Value)) : Tree :=
  entries.foldl (fun t (name, v) => t.place (folder.absolute name) (node v))
    ((⟨.folder []⟩ : Tree).place folder (.folder []))

/-- The start of 1970. -/
def epoch : Stamp :=
  { year := 1970, month := 1, day := 1, hour := 0, minute := 0, second := 0, micro := 0, offset := some 0 }

/-- The snapshot that a value describes. -/
def ofValue (v : Value) : Snapshot :=
  let workDir :=
    match v.field "folder" with
    | .text s => Path.absolute ⟨1, []⟩ s
    | _ => ⟨1, ["project"]⟩
  let entries :=
    match v.field "tree" with
    | .table es => es
    | _ => []
  { host := { tree := tree workDir entries, searchPath := texts (v.field "path"), workDir }
    workDir
    taken := ((Stamp.check (v.field "taken")).value?).getD epoch }

/-- The snapshot that a text holds. -/
def read (s : String) : Option Snapshot :=
  match Json.read s with
  | .ok v => some (ofValue v)
  | .error _ => none

end Snapshot
end LintMerge
