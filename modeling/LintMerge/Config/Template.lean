/-
# A configuration to start from

The text of a configuration that says what holds anyway, and of each linter whether
it runs (`render_config`).
-/

import LintMerge.Config.Settings
import LintMerge.Json.Writer

namespace LintMerge
namespace Config

/-- A string of a document; what is escaped in JSON is escaped in TOML alike. -/
def templateString (s : String) : String := String.ofList (Json.writeString s.toList)

/-- A list of strings of a document. -/
def templateList (ss : List String) : String := "[" ++ ", ".intercalate (ss.map templateString) ++ "]"

/-- The table of a linter. -/
def templateTable (name : String) (enabled : Bool) : List String :=
  ["", s!"[linters.{name}]", "enabled = " ++ (if enabled then "true" else "false")]

/-- The text of a configuration that says whether each of some linters runs. -/
def template (enabled : List (Linter × Bool)) : String :=
  let lines :=
    ["# lintmesh configuration",
     "include = " ++ templateList defaultInclude,
     "exclude = []",
     s!"timeout = {defaultTimeoutMs}",
     "fail_on = " ++ templateString defaultFailOn.name] ++
    enabled.flatMap fun (l, flag) => templateTable l.name flag
  "\n".intercalate lines ++ "\n"

/-- What is said of a name that is none of a linter. -/
def unknownLinterMessage (name : String) : String := s!"Unknown linter '{name}'"

/-- The text for linters given by name; refused with the first name of none. -/
def templateFor (enabled : List (String × Bool)) : Except String String := do
  let found ← enabled.mapM fun (name, flag) =>
    match Linter.ofName? name with
    | some l => Except.ok (l, flag)
    | none => .error name
  return template found

end Config
end LintMerge
