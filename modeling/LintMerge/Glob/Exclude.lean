/-
# Exclusion

A path is excluded when it is matched; a directory also when it is matched as a
directory or when a file of an unlikely name in it is (`ExcludeMatcher`).
-/

import LintMerge.Glob.Match

namespace LintMerge
namespace Glob

/-- The name of a file that stands for all files of a directory. -/
def probeName : String := "__lintmesh_probe__"

/-- A path without slashes around it. -/
def trimSlashes (s : List Char) : List Char :=
  ((s.dropWhile (· = '/')).reverse.dropWhile (· = '/')).reverse

/-- Whether a path below the root is excluded. -/
def Spec.excludes (spec : Spec) (path : String) (directory : Bool := false) : Bool :=
  let s := String.ofList (trimSlashes path.toList)
  s != "" && (spec.isMatch s ||
    (directory && (spec.isMatch (s ++ "/") || spec.isMatch (s ++ "/" ++ probeName))))

end Glob
end LintMerge
