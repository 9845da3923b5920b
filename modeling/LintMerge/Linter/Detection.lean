/-
# Which linters a project can use

A linter is recommended when its program is there and the project has opted into it,
by a file that configures it or by a package that brings it (`detect_linter`,
`DetectionResult`). Its tool says which programs, files and packages these are.
-/

import LintMerge.Linter.Attempt
import LintMerge.Linter.Registry
import LintMerge.Manifest

namespace LintMerge

/-- What is known of one linter in a project. -/
structure Detection where
  linter : Linter
  available : Bool
  binPath : Option String := none
  binSource : Option ProgramSource := none
  version : Option String := none
  configPath : Option Path := none
  /-- whether the project declares a package that brings the linter -/
  declared : Bool := false
  deriving DecidableEq, Repr

namespace Detection

/-- Whether a file configures the linter. -/
def hasConfig (d : Detection) : Bool := d.configPath.isSome

/-- Whether the linter can run and the project has opted into it. -/
def recommended (d : Detection) : Bool := d.available && (d.hasConfig || d.declared)

/-- The detection that a value describes. -/
def check (v : Value) : Checked Detection :=
  Check.record .memory "DetectionResult" v fun es =>
    Detection.mk <$>
      Check.required es (.plain "name") (Check.named .notNamed Linter.name Linter.all) <*>
      Check.required es (.plain "available") Check.truth <*>
      Check.defaulted es (.plain "bin_path") none (Check.optional Check.text) <*>
      Check.defaulted es (.plain "bin_source") none
        (Check.optional (Check.named .notNamed ProgramSource.name ProgramSource.all)) <*>
      Check.defaulted es (.plain "version") none (Check.optional Check.text) <*>
      Check.defaulted es (.plain "config_path") none (Check.optional Check.path) <*>
      Check.defaulted es (.plain "declared") false Check.truth

/-- The fault that ends the work when the declared packages are not known. -/
def manifestFault : Manifest.Fault → Attempt.Fault
  | .tooLong p => .tooLong p
  | .tooManyDigits count => .tooManyDigits count

/-- The file that configures a linter. -/
def configOf (t : Tree) (root : Path) (tool : Tool) : Except Attempt.Fault (Option Path) :=
  (t.firstFile (tool.configFiles.map root.child)).mapError .tooLong

/-- What is looked up of a linter before its program is run: the program, and the file that
configures it. -/
def lookUp (h : Host) (root : Path) (t : Tool) :
    Except Attempt.Fault (Option Program × Option Path) := do
  let program ← Attempt.locate h t root none
  let config ← configOf h.tree root t
  return (program, config)

/-- What is known of a linter of which all has been found out. -/
def of (packages : List String) (t : Tool) (config : Option Path)
    (found : Option (Program × String)) : Detection where
  linter := t.linter
  available := found.isSome
  binPath := found.map (·.1.path)
  binSource := found.map (·.1.source)
  version := found.map (·.2)
  configPath := config
  declared := t.packages.any packages.contains

/-- Finds out about a linter. -/
def detect (h : Host) (root : Path) (packages : List String) (t : Tool) : Attempt.Work Detection :=
  match lookUp h root t with
  | .error f => .done (.error f)
  | .ok (none, config) => .done (.ok (of packages t config none))
  | .ok (some p, config) =>
    (Attempt.probe t root p).bind fun answer =>
      .done (answer.map fun o => of packages t config (some (p, Attempt.versionOf t p o)))

/-- Finds out about a linter. The packages that the project declares are read where they are not
known, after the program and the configuration have been looked up. -/
def detectIn (h : Host) (root : Path) (packages : Option (List String)) (t : Tool) :
    Attempt.Work Detection :=
  match packages with
  | some packages => detect h root packages t
  | none =>
    match lookUp h root t, Manifest.declared h.tree root with
    | .error f, _ => .done (.error f)
    | .ok _, .error f => .done (.error (manifestFault f))
    | .ok _, .ok packages => detect h root packages t

/-- Finds out about the linter of which a registry has the tool under a name. It fails with a name
that the registry does not have. -/
def detectNamed (h : Host) (r : Registry) (root : Path) (packages : Option (List String))
    (name : String) : Except String (Attempt.Work Detection) :=
  match r.orBuiltin.get? name with
  | some t => .ok (detectIn h root packages t)
  | none => .error name

/-- Finds out about all linters, by the tools that are built in (`detect_all_linters`). -/
def detectAll (h : Host) (root : Path) : Attempt.Work (List Detection) :=
  match Manifest.declared h.tree root with
  | .error f => .done (.error (manifestFault f))
  | .ok packages =>
    (Job.inTurn (Linter.all.map fun l => detect h root packages l.tool)).bind fun found =>
      .done (found.mapM id)

end Detection
end LintMerge
