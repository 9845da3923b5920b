/-
# The package manifest

The packages that a project declares are the keys of two tables of `package.json`
(`declared_packages`). A
manifest that cannot be read or is no document declares none, but for two faults: its
path is too long, or an integer in it has too many digits.
-/

import LintMerge.Json.Reader
import LintMerge.Text.Utf8
import LintMerge.Tree.Basic

namespace LintMerge
namespace Manifest

/-- The name of the file. -/
def fileName : String := "package.json"

/-- The tables whose keys are packages. -/
def sections : List String := ["dependencies", "devDependencies"]

/-- The keys of a table, none of anything else. -/
def keys : Value → List String
  | .table es => es.map (·.1)
  | _ => []

/-- Names in order, each once. -/
def inOrder (names : List String) : List String := names.eraseDups.mergeSort fun a b => a ≤ b

/-- The packages that a document declares, in order. -/
def declaredIn (document : Value) : List String :=
  inOrder (sections.flatMap fun name => keys (document.field name))

/-- Why it is not known which packages a project declares. -/
inductive Fault where
  /-- the path of the manifest is too long -/
  | tooLong (path : Path)
  /-- an integer of the manifest has too many digits -/
  | tooManyDigits (count : Nat)
  deriving DecidableEq, Repr

/-- The packages that a text declares, none if it is no document. -/
def declaredBy (octets : List UInt8) : Except Fault (List String) :=
  match Text.Utf8.decode octets with
  | .error _ => .ok []
  | .ok s =>
    match Json.document s with
    | .ok v => .ok (declaredIn v)
    | .error (.tooManyDigits count) => .error (.tooManyDigits count)
    | .error (.malformed ..) => .ok []

/-- The packages that a project declares, where files are read in some way. -/
def declaredVia (read : Reading) (t : Tree) (root : Path) : Except Fault (List String) :=
  let path := root.child fileName
  if t.isTooLong path then .error (.tooLong path)
  else if t.isFile path then
    match read path with
    | .ok octets => declaredBy octets
    | .error _ => .ok []
  else .ok []

/-- The packages that a project declares. -/
def declared (t : Tree) (root : Path) : Except Fault (List String) := declaredVia t.contents t root

end Manifest
end LintMerge
