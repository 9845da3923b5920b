/-
# What a command line asks for

There are three commands: one runs the linters (`lint_command`), one writes a
configuration to start from (`init_command`), one shows what is installed
(`detect_command`). The program and each command have a screen of help. An option that
asks for one is seen to before the values of other options are looked at, and so is the
one for the version: options that are not known are refused first, values that do not
fit are not noticed.
-/

import LintMerge.Command.Arguments
import LintMerge.Text.Digit
import LintMerge.Tree.Basic

namespace LintMerge
namespace Command

/-- What is asked of a run of the linters. -/
structure LintRequest where
  files : List String := []
  json : Bool := false
  pretty : Bool := false
  fix : Bool := false
  linters : Option String := none
  failOn : Option String := none
  timeoutMs : Option Int := none
  cwd : Option String := none
  excludes : List String := []
  quiet : Bool := false
  verbose : Bool := false
  deriving DecidableEq, Repr

/-- What a command line asks for. -/
inductive Request where
  | version
  /-- a screen of help, of the program or of a command -/
  | help (command : Option String)
  | lint (r : LintRequest)
  | init (force : Bool) (cwd : Option String)
  | detect (cwd : Option String)
  deriving DecidableEq, Repr

namespace Request

/-- A flag. -/
def flag (name : String) : Known := ⟨name, false⟩

/-- An option with a value. -/
def option (name : String) : Known := ⟨name, true⟩

/-- The option that asks for a screen of help. -/
def helpName : String := "--help"

/-- The options of the program itself. -/
def ownOptions : List Known := [flag "--version", flag helpName]

/-- The options of a run of the linters. -/
def lintOptions : List Known :=
  [flag "--json", flag "--pretty", flag "--fix", option "--linters", option "--fail-on",
   option "--timeout", option "--cwd", option "--exclude", flag "--quiet", flag "--verbose",
   flag helpName]

/-- The options of the command that writes a configuration. -/
def initOptions : List Known := [flag "--force", option "--cwd", flag helpName]

/-- The options of the command that shows what is installed. -/
def detectOptions : List Known := [option "--cwd", flag helpName]

/-- A time in milliseconds, one at least. -/
def time (s : String) : Except UsageFault Int :=
  match Text.readInt? s.toList with
  | some n => if 1 ≤ n then .ok n else .error .misuse
  | none => .error .misuse

/-- A folder to work in; what is a file is refused, what is not there is not. -/
def folder (t : Tree) (workDir : Path) (s : String) : Except UsageFault String :=
  if t.isFile (workDir.join (Path.ofText s)) && s.toList.getLast? ≠ some '/' then .error .misuse
  else .ok s

/-- What the arguments of a run of the linters ask for. -/
def lintOf (t : Tree) (workDir : Path) (a : Arguments) : Except UsageFault LintRequest := do
  let timeoutMs ← (a.last? "--timeout").mapM time
  let cwd ← (a.last? "--cwd").mapM (folder t workDir)
  return {
    files := a.operands
    json := a.has "--json"
    pretty := a.has "--pretty"
    fix := a.has "--fix"
    linters := a.last? "--linters"
    failOn := a.last? "--fail-on"
    timeoutMs
    cwd
    excludes := a.values "--exclude"
    quiet := a.has "--quiet"
    verbose := a.has "--verbose" }

/-- What the arguments of the command that writes a configuration ask for. -/
def initOf (t : Tree) (workDir : Path) (a : Arguments) : Except UsageFault Request := do
  let cwd ← (a.last? "--cwd").mapM (folder t workDir)
  if a.operands.isEmpty then return .init (a.has "--force") cwd else throw .misuse

/-- What the arguments of the command that shows what is installed ask for. -/
def detectOf (t : Tree) (workDir : Path) (a : Arguments) : Except UsageFault Request := do
  let cwd ← (a.last? "--cwd").mapM (folder t workDir)
  if a.operands.isEmpty then return .detect cwd else throw .misuse

/-- What the arguments of a command ask for: its screen of help, or what the command makes of
them. -/
def ofCommand (name : String) (known : List Known) (made : Arguments → Except UsageFault Request)
    (args : List String) : Except UsageFault Request := do
  let a ← Arguments.parse known true args
  if a.has helpName then return .help (some name) else made a

/-- What a command line asks for. Of the options of the program the first one counts. -/
def read (t : Tree) (workDir : Path) (args : List String) : Except UsageFault Request := do
  let own ← Arguments.parse ownOptions false args
  match own.options, own.operands with
  | (name, _) :: _, _ => return if name = helpName then .help none else .version
  | [], "lint" :: rest =>
    ofCommand "lint" lintOptions (fun a => (lintOf t workDir a).map .lint) rest
  | [], "init" :: rest => ofCommand "init" initOptions (initOf t workDir) rest
  | [], "detect" :: rest => ofCommand "detect" detectOptions (detectOf t workDir) rest
  | _, _ => throw .misuse

end Request
end Command
end LintMerge
