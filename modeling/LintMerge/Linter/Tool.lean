/-
# Tools

What is known of one linter (`LinterTool`): the programs that bring it, and functions that make the
arguments of a run, that tell a run that failed from one of which the output is to be read, and that
read it. Such a function may come to a fault of its own, which ends whatever it is called in.

Each of the four linters has a tool that is built in (`Linter.tool`), and stands for it where a tool
is wanted. None of the functions of these tools comes to a fault of its own.
-/

import LintMerge.Linter.Invocation
import LintMerge.Linter.Verdict
import LintMerge.Output.Reader

namespace LintMerge

/-- The definition of a linter. -/
structure Tool where
  linter : Linter
  displayName : String
  /-- the names of the programs, the preferred one first -/
  binaries : List String
  /-- the arguments that the linter always needs, and those for fixing -/
  ownArgs : Invocation → Except CallFault (List String)
  /-- the issues in an output -/
  parse : Path → String → Except CallFault (Except Output.Fault (List Issue))
  /-- why the linter failed, none if its output is to be read -/
  failure? : Outcome → Except CallFault (Option String)
  /-- what is to be warned of although the linter worked -/
  doubt? : Outcome → List Issue → Except CallFault (Option String) := fun _ _ => .ok none
  /-- whether it looks at the whole project whatever files it is given -/
  isProjectWide : Bool := false
  /-- whether it reports on both of its streams -/
  usesBothStreams : Bool := false
  /-- the arguments that ask a program for its version -/
  versionArgs : List String := Linter.versionArgs
  /-- the files that configure it, the first one preferred -/
  configFiles : List String := []
  /-- the packages that bring it -/
  packages : List String := []

namespace Tool

/-- The fault of taking the last of no programs. -/
def noPrograms : CallFault := .badValue "not enough values to unpack (expected at least 1, got 0)"

/-- What is said when no program of a tool is found (`LinterTool.missing_message`). -/
def missingMessage (t : Tool) : Except CallFault String :=
  match Linter.missingMessage? t.binaries with
  | some message => .ok message
  | none => .error noPrograms

/-- The arguments of a tool's program: its own, those of the configuration, and the files unless it
looks at the whole project (`LinterAdapter.build_command_args`). -/
def args (t : Tool) (i : Invocation) : Except CallFault (List String) :=
  (t.ownArgs i).map fun own =>
    own ++ i.extraArgs ++ if t.isProjectWide then [] else i.files.map Path.text

end Tool

namespace Linter

/-- The tool of a linter that is built in. -/
def tool (l : Linter) : Tool where
  linter := l
  displayName := l.displayName
  binaries := l.binaries
  ownArgs i := .ok (l.ownArgs i.fix)
  parse root output := .ok (l.parse root output)
  failure? o := .ok (l.failure? o)
  doubt? o issues := .ok (l.doubt? o issues)
  isProjectWide := l.isProjectWide
  usesBothStreams := l.usesBothStreams
  configFiles := l.configFiles
  packages := l.packages

instance : Coe Linter Tool := ⟨tool⟩

@[simp] theorem linter_tool (l : Linter) : l.tool.linter = l := rfl

@[simp] theorem binaries_tool (l : Linter) : l.tool.binaries = l.binaries := rfl

@[simp] theorem isProjectWide_tool (l : Linter) : l.tool.isProjectWide = l.isProjectWide := rfl

@[simp] theorem usesBothStreams_tool (l : Linter) : l.tool.usesBothStreams = l.usesBothStreams := rfl

@[simp] theorem missingMessage_tool (l : Linter) : l.tool.missingMessage = .ok l.missingMessage := by
  cases l <;> rfl

/-- What is warned of is something. -/
theorem ne_empty_of_doubt? {l : Linter} {o : Outcome} {issues : List Issue} {warning : String}
    (h : l.doubt? o issues = some warning) : warning ≠ "" := by
  rw [doubt?] at h
  split at h
  · cases h
    exact fun hempty => absurd (String.append_eq_empty_iff.1 hempty).2 (by decide)
  · cases h

end Linter
end LintMerge
