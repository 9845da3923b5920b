/-
# The command that writes a configuration

The configuration enables the linters that are recommended or, if there are none, the
default ones that are there. A configuration that exists is only overwritten on
request (`init_command`).
-/

import LintMerge.Command.Ending
import LintMerge.Config.Template
import LintMerge.Linter.Detection
import LintMerge.Text.Utf8

namespace LintMerge
namespace Command

/-- The name of the file. -/
def configName : String := "lintmesh.toml"

/-- Each linter, and whether a configuration to start from enables it. -/
def enabledIn (ds : List Detection) : List (Linter × Bool) :=
  let recommended := (ds.filter Detection.recommended).map Detection.linter
  let chosen :=
    if recommended.isEmpty then
      (ds.filter fun d => d.available && Linter.defaults.contains d.linter).map Detection.linter
    else recommended
  ds.map fun d => (d.linter, chosen.contains d.linter)

/-- Why a file cannot be written. -/
inductive WriteFault where
  | folder
  | place (f : Tree.Fault)
  deriving DecidableEq, Repr

/-- What the system says of a path that cannot be written. -/
def WriteFault.message (f : WriteFault) (p : Path) : String :=
  let cause :=
    match f with
    | folder => "[Errno 21] Is a directory"
    | place .missing => "[Errno 2] No such file or directory"
    | place .notFolder => "[Errno 20] Not a directory"
    | place .tooManyLinks => "[Errno 40] Too many levels of symbolic links"
    | place .tooLong => "[Errno 36] File name too long"
  s!"{cause}: " ++ quoted p.text

/-- A tree with a text written to a file. -/
def writeText (t : Tree) (p : Path) (text : String) : Except WriteFault Tree :=
  if t.isFolder p then .error .folder
  else (t.write p (Text.Utf8.encode text.toList)).mapError .place

/-- Tells which linters are enabled. -/
def tellEnabled (enabled : List (Linter × Bool)) : Job Event Unit :=
  let names := (enabled.filter (·.2)).map (·.1.name)
  Job.say (.notice (
    if names.isEmpty then "no linters detected; the default set will be used"
    else "enabled " ++ ", ".intercalate names))

/-- Writes the configuration for what was detected. -/
def writeConfig (t : Tree) (target : Path) (ds : List Detection) : Job Event Ending :=
  let enabled := enabledIn ds
  match writeText t target (Config.template enabled) with
  | .error f => (Stop.told s!"Unable to write {target.text}: {f.message target}").finish
  | .ok t =>
    .tell (.notice s!"wrote {target.text}")
      ((tellEnabled enabled).bind fun _ => .done { status := ExitStatus.clean.code, tree := some t })

/-- Writes a configuration to start from. -/
def init (h : Host) (workDir : Path) (force : Bool) (cwd : Option String) : Job Event Ending :=
  match rootOf h workDir cwd with
  | .error stop => stop.finish
  | .ok root =>
    let target := root.child configName
    if h.tree.isTooLong target then .done (.ofUnhandled (.tooLong target))
    else if h.tree.holds target && !force then
      (Stop.told s!"{configName} already exists (use --force to overwrite)").finish
    else
      (Detection.detectAll h root).bind fun
        | .error f => .done (.ofUnhandled (.attempt f))
        | .ok ds => writeConfig h.tree target ds

end Command
end LintMerge
