import FlowWitness.Settings.Basic
import FlowWitness.Yaml.Writer

/-!
# Writing settings

The YAML text of settings, with every field given, which reads back as the
same settings.
-/

namespace FlowWitness.Settings

open FlowWitness.Yaml

/-- The column from which the further lines of a text are written. -/
def textColumn : Nat := 4

/-- The line of a field with a text. -/
def textLine (name text : String) : String :=
  endLine ("  " ++ name ++ ": " ++ scalarText textColumn text)

/-- The lines of a list of texts. -/
def listLines (name : String) (texts : List String) : String :=
  if texts.isEmpty then "  " ++ name ++ ": []\n"
  else
    "  " ++ name ++ ":\n" ++ String.join (texts.map (fun text =>
      endLine ("  - " ++ scalarText textColumn text)))

/-- The lines of the settings of the solver. -/
def SolverSettings.text (settings : SolverSettings) : String :=
  "solver:\n" ++ textLine "program" settings.program ++
    listLines "args" settings.arguments ++
    (match settings.logic with
    | some logic => textLine "logic" logic
    | none => "  logic: null\n") ++
    "  check_timeout_ms: " ++ toString settings.checkTimeoutMs ++ "\n"

/-- The lines of the settings of the search. -/
def SearchSettings.text (settings : SearchSettings) : String :=
  "executor:\n  max_block_visits: " ++ toString settings.maxBlockVisits ++ "\n"

/-- The text of all settings. -/
def Configuration.text (settings : Configuration) : String :=
  "version: " ++ toString settings.version ++ "\n" ++ settings.solver.text ++
    settings.search.text

end FlowWitness.Settings
