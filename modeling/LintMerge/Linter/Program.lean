/-
# Where programs lie

A linter brings programs, the preferred one first, and one of them is taken
(`LinterAdapter.resolve_binary`). One that the project has
installed comes before one on the search path, whichever is preferred. A program
that the configuration names is taken or none: a name without a slash is looked up
on the search path, and any other leads to a file. A text that leads to a program ends
in a name; one that ends in a slash or a dot can only lead to a folder.
-/

import LintMerge.Text.Collation
import LintMerge.Tree.Basic

namespace LintMerge

/-- The file system, where programs are looked up, and how texts are compared. -/
structure Host where
  tree : Tree
  /-- the folders of the search path -/
  searchPath : List String
  collation : Collation := .system
  /-- the folder that paths without a root lead from -/
  workDir : Path := ⟨1, []⟩
  /-- the screens of help, as the console lays them out: that of the program, and those of its
  commands -/
  help : Option String → String := fun _ => ""
  deriving Inhabited

/-- How a program was found. -/
inductive ProgramSource where
  /-- the configuration names it -/
  | configured
  /-- the project has it installed -/
  | installed
  /-- the search path leads to it -/
  | searched
  deriving DecidableEq, Repr

namespace ProgramSource

/-- All ways. -/
def all : List ProgramSource := [configured, installed, searched]

/-- The name of a way. -/
def name : ProgramSource → String
  | configured => "config"
  | installed => "local"
  | searched => "path"

end ProgramSource

/-- A program that was found. -/
structure Program where
  name : String
  /-- the text of the path to it -/
  path : String
  source : ProgramSource
  deriving DecidableEq, Repr

namespace Host

/-- The folder of the programs that a project has installed. -/
def installFolder : Path := Path.ofText "node_modules/.bin"

/-- The path of a name in a folder of the search path, where an empty text stands for the
folder to work in. -/
def entryText (folder name : String) : String :=
  if folder = "" ∨ folder.endsWith "/" then folder ++ name else folder ++ "/" ++ name

/-- Whether a text ends in a name. -/
def endsInName (s : String) : Bool := (Path.parts s).getLast?.any Path.isSegment

/-- Whether a text leads to a program. -/
def runs (h : Host) (s : String) : Bool :=
  endsInName s && h.tree.isProgram (h.workDir.join (Path.ofText s))

/-- The path to a program on the search path. A name with a slash is a path itself. -/
def search? (h : Host) (name : String) : Option String :=
  if '/' ∈ name.toList then if h.runs name then some name else none
  else (h.searchPath.map fun folder => entryText folder name).find? h.runs

/-- The program that a configuration names. -/
def named (h : Host) (cwd : Path) (name : String) : Except Path (Option Program) :=
  if '/' ∈ name.toList then
    let p := Path.ofText name
    let target := cwd.join p
    if h.tree.isTooLong target then .error target
    else if h.tree.isFile target then .ok (some ⟨p.name, target.text, .configured⟩)
    else .ok none
  else .ok ((h.search? name).map fun s => ⟨name, s, .configured⟩)

/-- The path of a program that a project has installed. -/
def installed (cwd : Path) (name : String) : Path :=
  (cwd.join installFolder).join (Path.ofText name)

/-- The first of some programs that a project has installed. It fails with a path that is
too long. -/
def firstInstalled (h : Host) (cwd : Path) : List String → Except Path (Option Program)
  | [] => .ok none
  | name :: rest =>
    let target := installed cwd name
    if h.tree.isTooLong target then .error target
    else if h.tree.isFile target then .ok (some ⟨name, target.text, .installed⟩)
    else firstInstalled h cwd rest

/-- The first of some programs that the search path leads to. -/
def firstSearched? (h : Host) (names : List String) : Option Program :=
  names.findSome? fun name => (h.search? name).map fun s => ⟨name, s, .searched⟩

/-- The program to run: the named one, if there is a name that is not empty, or one of
some candidates. It fails with a path that is too long. -/
def locate (h : Host) (cwd : Path) (candidates : List String) (name : Option String) :
    Except Path (Option Program) :=
  match name.filter (· ≠ "") with
  | some name => h.named cwd name
  | none => (h.firstInstalled cwd candidates).map fun found => found.or (h.firstSearched? candidates)

end Host
end LintMerge
