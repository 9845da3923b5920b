/-
# The files of a project

Files are asked for by patterns (`resolve_files`). A glob is matched against all files below the
root; a path of a folder stands for the source files below it, a path of a file for
the file, and any other text is taken for a glob (`_plan`). What an exclusion matches is left
out, and a folder that is excluded is not entered (`_walk`). Links to folders are not entered
either. A file that is asked for by its path is not subject to exclusions.
-/

import LintMerge.Glob.Exclude
import LintMerge.Issue.Filter
import LintMerge.Tree.Basic

namespace LintMerge

/-- The extensions of source files. -/
def sourceExtensions : List String := ["ts", "tsx", "js", "jsx", "mjs", "cjs"]

/-- The glob of the source files below a folder. -/
def sourceGlob : String := "**/*.\x7b" ++ ",".intercalate sourceExtensions ++ "\x7d"

namespace Tree

/-- What patterns ask for. -/
structure Request where
  globs : List String := []
  /-- files asked for by their paths -/
  files : List Path := []
  deriving DecidableEq, Repr

/-- Why files cannot be found. -/
inductive FilesFault where
  | tooLong (p : Path)
  | badPattern (line : String)
  deriving DecidableEq, Repr

/-- What is said of a fault. -/
def FilesFault.message : FilesFault → String
  | tooLong p => tooLongMessage p
  | badPattern line => Glob.Spec.invalidMessage line

/-- The glob of the source files below a folder that a text names. -/
def folderGlob (text : String) : String :=
  let start := String.ofList (Issue.dropSlashes (Path.ofText text).text.toList)
  if start = "" ∨ start = "." then sourceGlob else start ++ "/" ++ sourceGlob

/-- A pattern as it is seen from the root. -/
def seenFrom (root : Path) (pattern : String) : String :=
  if Path.isAbsoluteText pattern then root.key pattern else pattern

/-- A request with what one pattern asks for. -/
def request (t : Tree) (root : Path) (r : Request) (pattern : String) : Except FilesFault Request :=
  let text := seenFrom root pattern
  if hasGlob text then .ok { r with globs := r.globs ++ [text] }
  else
    let target := root.absolute text
    if t.isTooLong target then .error (.tooLong target)
    else if t.isFolder target then .ok { r with globs := r.globs ++ [folderGlob text] }
    else if t.isFile target then .ok { r with files := r.files ++ [target] }
    else .ok { r with globs := r.globs ++ [text] }

/-- What patterns ask for. -/
def plan (t : Tree) (root : Path) (patterns : List String) : Except FilesFault Request :=
  patterns.foldlM (t.request root) {}

mutual

/-- The files at the node of a path and below it, as seen from the root; `isFolder` tells of
links. -/
def walkNode (excluded : Glob.Spec) (isFolder : String → Bool) (path : String) : Node → List String
  | .file .. => [path]
  | .link _ => if isFolder path then [] else [path]
  | .folder es => if excluded.excludes path true then [] else walk excluded isFolder (path ++ "/") es
termination_by structural n => n

/-- The files below a folder. -/
def walk (excluded : Glob.Spec) (isFolder : String → Bool) (start : String) :
    List (String × Node) → List String
  | [] => []
  | e :: rest => walkEntry excluded isFolder start e ++ walk excluded isFolder start rest
termination_by structural es => es

/-- The files at an entry of a folder. -/
def walkEntry (excluded : Glob.Spec) (isFolder : String → Bool) (start : String) :
    String × Node → List String
  | (name, n) => walkNode excluded isFolder (start ++ name) n
termination_by structural e => e

end

/-- Whether a path below the root leads to a folder. -/
def leadsToFolder (t : Tree) (root : Path) (s : String) : Bool := t.isFolder (root.join (Path.ofText s))

/-- The files below a root that are not in an excluded folder. -/
def below (t : Tree) (root : Path) (excluded : Glob.Spec) : List String :=
  match t.node? root with
  | some (.folder es) => walk excluded (t.leadsToFolder root) "" es
  | _ => []

/-- The files below a root that globs ask for and that are not excluded. -/
def matching (t : Tree) (root : Path) (wanted excluded : Glob.Spec) : List Path :=
  ((t.below root excluded).filter fun s => wanted.isMatch s && !excluded.excludes s).map fun s =>
    root.join (Path.ofText s)

/-- The files below a root that globs ask for; without globs none is looked for. -/
def search (t : Tree) (root : Path) (globs : List String) (excluded : Glob.Spec) :
    Except FilesFault (List Path) :=
  if globs.isEmpty then .ok []
  else ((Glob.Spec.build globs).mapError .badPattern).map fun wanted => t.matching root wanted excluded

/-- Paths in order, each once. -/
def inOrder (paths : List Path) : List Path := (paths.eraseDups).mergeSort Path.atMost

/-- The patterns that are asked for, others in the place of none. -/
def asked (patterns fallback : List String) : List String := if patterns.isEmpty then fallback else patterns

/-- The files that patterns ask for, in order. -/
def files (t : Tree) (root : Path) (patterns exclude : List String) (fallback : List String) :
    Except FilesFault (List Path) := do
  let r ← t.plan root (asked patterns fallback)
  let excluded ← (Glob.Spec.build exclude).mapError .badPattern
  let found ← t.search root r.globs excluded
  return inOrder (r.files ++ found)

end Tree
end LintMerge
