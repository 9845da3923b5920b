/-
# Configuration

What a configuration says: which linters run and how, which files are looked at, for
how long and what fails a run. What it does not say stays unset, so that a default
can be told from a choice (`LintmeshConfig`, `LinterConfig`). All problems of a configuration
are reported at once, and an entry that nothing reads is one of them (`parse_config`).
-/

import LintMerge.Check.Field
import LintMerge.Linter
import LintMerge.Severity

namespace LintMerge

/-- What a configuration says of one linter. -/
structure LinterSettings where
  enabled : Bool := true
  /-- the program to run -/
  bin : Option String := none
  /-- further arguments -/
  args : List String := []
  deriving DecidableEq, Repr

/-- What a value says of one linter. -/
def LinterSettings.check (v : Value) : Checked LinterSettings :=
  Check.record .memory "LinterConfig" v fun es =>
    (LinterSettings.mk <$>
      Check.defaulted es (.plain "enabled") true Check.truth <*>
      Check.defaulted es (.plain "bin") none (Check.optional Check.text) <*>
      Check.defaulted es (.plain "args") [] (Check.sequence .memory Check.text)).also
        (Check.unexpected ["enabled", "bin", "args"] es)

/-- A configuration. -/
structure Config where
  /-- linters in the order in which they are listed -/
  linters : List (Linter × LinterSettings) := []
  includes : Option (List String) := none
  excludes : Option (List String) := none
  timeoutMs : Option Nat := none
  failOn : Option Severity := none
  deriving DecidableEq, Repr

namespace Config

/-- The linters that are listed and not disabled, in order. -/
def enabledLinters (c : Config) : List Linter := (c.linters.filter (·.2.enabled)).map (·.1)

/-- A linter that a key names. -/
def checkName (name : String) : Checked Linter :=
  match Linter.ofName? name with
  | some l => .ok l
  | none => (Checked.refuse (.notNamed (Linter.all.map Linter.name))).under (.key "[key]")

/-- What entries say of linters. -/
def checkLinters : List (String × Value) → Checked (List (Linter × LinterSettings))
  | [] => .ok []
  | (name, v) :: rest =>
    (fun l s more => (l, s) :: more) <$> (checkName name).under (.key name) <*>
      (LinterSettings.check v).under (.key name) <*> checkLinters rest

/-- The severity that a value names in any letter case. -/
def checkFailOn : Value → Checked (Option Severity)
  | .null => .ok none
  | .text s =>
    match Severity.read? s with
    | some sev => .ok (some sev)
    | none => .refuse (.broken (Severity.unknownMessage s))
  | .torn t => .refuse (.broken (Severity.unknownMessage t.lossyText))
  | _ => .refuse (.notLevel (Severity.all.map Severity.name))

/-- The entries of a configuration, with dashes in names read as underscores. -/
def unifyNames (es : List (String × Value)) : List (String × Value) :=
  es.foldl (fun done (k, v) => Value.insert (k.map fun c => if c = '-' then '_' else c) v done) []

/-- The configuration that entries describe. -/
def check (es : List (String × Value)) : Checked Config :=
  let es := unifyNames es
  let texts (name : String) :=
    Check.defaulted es (.plain name) none (Check.optional (Check.sequence .memory Check.text))
  (Config.mk <$>
    Check.defaulted es (.plain "linters") [] (fun
      | .table entries => checkLinters entries
      | _ => .refuse .notTable) <*>
    texts "include" <*>
    texts "exclude" <*>
    (Check.defaulted es (.plain "timeout") none (Check.optional fun v =>
      (Check.positive v).map (·.1))) <*>
    Check.defaulted es (.plain "fail_on") none checkFailOn).also
      (Check.unexpected ["linters", "include", "exclude", "timeout", "fail_on"] es)

/-- What is said of a configuration from a source that has faults. -/
def invalidMessage (source : String) (faults : List Check.Fault) : String :=
  s!"Invalid config in {source}: " ++ "; ".intercalate (faults.map Check.Fault.message)

/-- The configuration that entries describe, or what is wrong with them. -/
def ofEntries (source : String) (es : List (String × Value)) : Except String Config :=
  match check es with
  | .ok c => .ok c
  | .refused first rest => .error (invalidMessage source (first :: rest))

end Config
end LintMerge
