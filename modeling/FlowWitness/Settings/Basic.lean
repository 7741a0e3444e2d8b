import FlowWitness.IoFault
import FlowWitness.Text.Blank

/-!
# Settings

How the solver is run and how far a search goes, with the values used where
nothing is said and the ranges that are accepted.
-/

namespace FlowWitness.Settings

open FlowWitness.Text

/-! ## Errors -/

/-- Why settings are refused. -/
inductive SettingsError where
  | range (field : String) (value low high : Nat) (hint : String)
  | unsupportedVersion (found : Nat)
  | io (fault : IoFault)
  | malformed
  | invalid (reason : String)
  deriving DecidableEq, Repr

/-- The name of a settings error. -/
def SettingsError.code : SettingsError → String
  | .range _ _ _ _ _ => "Range"
  | .unsupportedVersion _ => "UnsupportedVersion"
  | .io _ => "Io"
  | .malformed => "Yaml"
  | .invalid _ => "Validation"

/-- The text of a settings error. -/
def SettingsError.message : SettingsError → String
  | .range field value low high hint =>
    "Invalid range for field '" ++ field ++ "': " ++ toString value ++
      " not in " ++ toString low ++ "..=" ++ toString high ++ ". " ++ hint
  | .unsupportedVersion found =>
    "Unsupported configuration version " ++ toString found ++
      ". Supported versions: 1"
  | .io fault => "IO error: " ++ fault.message
  | .malformed => "YAML parsing error"
  | .invalid reason => "Validation error: " ++ reason

/-! ## The solver -/

/-- How the solver is started and how long one check may take. -/
structure SolverSettings where
  program : String
  arguments : List String
  logic : Option String
  checkTimeoutMs : Nat
  deriving DecidableEq, Repr

namespace SolverSettings

/-- The solver that is used where nothing is said. -/
def standard : SolverSettings :=
  ⟨"z3", ["-in", "-smt2"], some "ALL", 10000⟩

/-- The name under which these settings are reported. -/
def title : String := "SolverConfig"

/-- The longest time that one check may be given. -/
def maxTimeoutMs : Nat := 3600000

/-- The limit on one check, in milliseconds; zero means no limit. -/
def checkLimit? (settings : SolverSettings) : Option Nat :=
  if settings.checkTimeoutMs = 0 then none else some settings.checkTimeoutMs

/-- A program must be named, and a check must end within an hour. -/
def validate (settings : SolverSettings) : Except SettingsError Unit :=
  if settings.program.toList.all isBlank then
    .error (.invalid "solver.program must not be empty")
  else if maxTimeoutMs < settings.checkTimeoutMs then
    .error (.range "check_timeout_ms" settings.checkTimeoutMs 0 maxTimeoutMs
      "A single check should finish within an hour (0 = unlimited)")
  else .ok ()

end SolverSettings

/-! ## The search -/

/-- How often a search may merge the states of one block. -/
structure SearchSettings where
  maxBlockVisits : Nat
  deriving DecidableEq, Repr

namespace SearchSettings

/-- The bound that is used where nothing is said. -/
def standard : SearchSettings := ⟨16⟩

/-- The name under which these settings are reported. -/
def title : String := "ExecutorConfig"

/-- The largest bound that is accepted. -/
def maxVisits : Nat := 10000

/-- Every block must be visited at least once, and finitely often. -/
def validate (settings : SearchSettings) : Except SettingsError Unit :=
  if settings.maxBlockVisits = 0 ∨ maxVisits < settings.maxBlockVisits then
    .error (.range "max_block_visits" settings.maxBlockVisits 1 maxVisits
      "Each block must be visited at least once; loops need a finite bound")
  else .ok ()

end SearchSettings

/-! ## All settings -/

/-- The settings of a search and its solver, with the version of their form. -/
structure Configuration where
  version : Nat
  solver : SolverSettings
  search : SearchSettings
  deriving DecidableEq, Repr

namespace Configuration

/-- The only version there is. -/
def currentVersion : Nat := 1

/-- The settings that are used where nothing is said. -/
def standard : Configuration := ⟨currentVersion, .standard, .standard⟩

/-- The name under which these settings are reported. -/
def title : String := "SymexConfig"

/-- Check the version, then the solver, then the search. -/
def validate (settings : Configuration) : Except SettingsError Unit :=
  if settings.version = currentVersion then do
    settings.solver.validate
    settings.search.validate
  else .error (.unsupportedVersion settings.version)

end Configuration

end FlowWitness.Settings
