/-
# Issues of requested paths

A linter that always looks at a whole project reports more than was asked for. An issue is kept when
its path is a requested one or lies below it (`filter_by_patterns`). All are kept when nothing was
requested, when the working root was, and when a request is a glob, because globs have narrowed the
files before.
-/

import LintMerge.Issue.Basic

namespace LintMerge

/-- Whether a text is a glob. -/
def hasGlob (pattern : String) : Bool := pattern.toList.any (· ∈ "*?[]\x7b\x7d".toList)

namespace Issue

/-- A text without `./` at its start, however often it stands there. -/
def dropHere : List Char → List Char
  | '.' :: '/' :: rest => dropHere rest
  | s => s

/-- A text without the slashes at its end. -/
def dropSlashes (s : List Char) : List Char := (s.reverse.dropWhile (· = '/')).reverse

/-- A requested path as paths of issues are spelled, `.` for the working root. -/
def requested (root : Option Path) (pattern : String) : String :=
  let seen :=
    match root with
    | some r => if Path.isAbsoluteText pattern then r.key pattern else pattern
    | none => pattern
  (Path.ofText (String.ofList (dropSlashes (dropHere seen.toList)))).text

/-- Whether a path is a requested one or lies below it. -/
def isUnder (path request : List Glyph) : Bool :=
  path = request || (request ++ [Glyph.char '/']).isPrefixOf path

/-- The issues of requested paths. -/
def filter (issues : List Issue) (patterns : List String) (root : Option Path) : List Issue :=
  if patterns.isEmpty || patterns.any hasGlob then issues
  else
    let requests := patterns.map (requested root)
    if requests.contains "." then issues
    else issues.filter fun i => requests.any fun r => isUnder i.spelling (Glyph.ofString r)

end Issue
end LintMerge
