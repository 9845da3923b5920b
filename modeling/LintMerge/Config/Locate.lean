/-
# Where configuration is found

A project is configured by `lintmesh.toml`, else by the file of that name in
`.config`, else by a table of `pyproject.toml`, if that has one (`find_config_file`). A
file that comes first hides the others, whatever it holds; it is the one that is read
(`load_config`).
-/

import LintMerge.Config.Basic
import LintMerge.Text.Utf8
import LintMerge.Toml.Document
import LintMerge.Tree.Basic

namespace LintMerge

/-- A configuration and the file that it was read from. -/
structure LoadedConfig where
  path : Option Path := none
  config : Config := {}
  deriving DecidableEq, Repr

namespace Config

/-- Files that hold nothing but configuration, the preferred one first. -/
def files : List String := ["lintmesh.toml", ".config/lintmesh.toml"]

/-- The file that may hold configuration in one of its tables. -/
def manifest : String := "pyproject.toml"

/-- Why a configuration cannot be loaded. -/
inductive LoadFault where
  /-- a file that cannot be read -/
  | unreadable (path : Path) (reason : String)
  /-- a file that is no TOML document -/
  | badToml (path : Path) (message : String)
  /-- the place of a table holds something else -/
  | notATable (path : Path)
  /-- a configuration with faults -/
  | invalid (message : String)
  /-- a file that is no text -/
  | notText (fault : Text.Utf8.Fault)
  /-- an integer with too many digits -/
  | tooManyDigits (count : Nat)
  /-- a place of the file that is too long to be looked up -/
  | tooLong (path : Path)
  deriving DecidableEq, Repr

/-- What is said of a fault. -/
def LoadFault.message : LoadFault → String
  | unreadable path reason => s!"Unable to read {path.text}: {reason}"
  | badToml path message => s!"Invalid TOML in {path.text}: {message}"
  | notATable path => s!"[tool.lintmesh] in {path.text} must be a table"
  | invalid message => message
  | notText fault => fault.message
  | tooManyDigits count => Text.tooManyDigits count
  | tooLong path => Tree.tooLongMessage path

/-- Whether a fault is told as one of the configuration. The others are told as what they are: text
that is none, a number or a path that is too long. -/
def LoadFault.isOfConfig : LoadFault → Bool
  | unreadable .. | badToml .. | notATable _ | invalid _ => true
  | notText _ | tooManyDigits _ | tooLong _ => false

/-- The entries of a document. -/
def readToml (path : Path) (octets : List UInt8) : Except LoadFault (List (String × Value)) :=
  match Text.Utf8.decode octets with
  | .error f => .error (.notText f)
  | .ok s =>
    let s := Toml.unifyLines s
    match Toml.entries s with
    | .ok es => .ok es
    | .error (.tooManyDigits count) => .error (.tooManyDigits count)
    | .error f => .error (.badToml path (f.message s))

/-- The entries of the document in a file. -/
def readFile (read : Reading) (path : Path) : Except LoadFault (List (String × Value)) := do
  let octets ← (read path).mapError (.unreadable path)
  readToml path octets

/-- The entries of the table that a manifest has for configuration. -/
def section? (read : Reading) (path : Path) : Except LoadFault (Option (List (String × Value))) := do
  let es ← readFile read path
  match ((Value.lookup "tool" es).getD .null).field "lintmesh" with
  | .null => return none
  | .table es => return some es
  | _ => throw (.notATable path)

/-- The first of some paths that leads to a file. It fails with a path that is too long. -/
def firstFile (t : Tree) (paths : List Path) : Except LoadFault (Option Path) :=
  (t.firstFile paths).mapError .tooLong

/-- The file that configures a project, where files are read in some way. -/
def findBy (read : Reading) (t : Tree) (root : Path) : Except LoadFault (Option Path) := do
  match ← firstFile t (files.map fun name => root.join (Path.ofText name)) with
  | some path => return some path
  | none =>
    match ← firstFile t [root.child manifest] with
    | some path => return (← section? read path).map fun _ => path
    | none => return none

/-- The file that configures a project. -/
def find? (t : Tree) (root : Path) : Except LoadFault (Option Path) := findBy t.contents t root

/-- The configuration of a project, an empty one if it has none, where files are read in some
way. -/
def loadBy (read : Reading) (t : Tree) (root : Path) : Except LoadFault LoadedConfig := do
  match ← findBy read t root with
  | none => return {}
  | some path =>
    let es ← if path.name = manifest then do pure ((← section? read path).getD [])
      else readFile read path
    let config ← (ofEntries path.text es).mapError .invalid
    return { path := some path, config }

/-- The configuration of a project, an empty one if it has none. -/
def load (t : Tree) (root : Path) : Except LoadFault LoadedConfig := loadBy t.contents t root

end Config
end LintMerge
