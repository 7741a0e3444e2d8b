import FlowWitness.Settings.Basic
import FlowWitness.Yaml.Node
import FlowWitness.Yaml.Resolution

/-!
# Reading settings

Settings are a YAML mapping.  Fields that are not known are passed over, and
known ones may be given once; everything but the version may be left out.  A
text is taken as it is written, whatever it looks like; a number must be
written plainly.  What is read is also checked.
-/

namespace FlowWitness.Settings

open FlowWitness.Yaml

/-! ## Fields -/

/-- The tag of nulls. -/
def nullTag : String := "tag:yaml.org,2002:null"

/-- The tag of whole numbers. -/
def integerTag : String := "tag:yaml.org,2002:int"

/-- Is nothing written here? -/
def isAbsent : Node → Bool
  | .scalar text .plain _ => text.isEmpty
  | _ => false

/-- A text: any scalar. -/
def textOf : Node → Option String
  | .scalar text _ _ => some text
  | _ => none

/-- A text that may be null, which only a plain scalar can be. -/
def optionalTextOf : Node → Option (Option String)
  | .scalar text .plain none =>
    some (if text.isEmpty || isNull text then none else some text)
  | .scalar text .plain (some tag) =>
    if tag = nullTag then (if isNull text then some none else none)
    else some (some text)
  | node => (textOf node).map some

/-- A list of texts. -/
def textsOf : Node → Option (List String)
  | .sequence items => items.mapM textOf
  | node => if isAbsent node then some [] else none

/-- A number below a bound. -/
def numberOf (bound : Nat) : Node → Option Nat
  | .scalar text .plain _ => readNatural bound text.toList
  | .scalar text .literal (some tag) =>
    if tag = integerTag then readNatural bound text.toList else none
  | _ => none

/-- The entries of a mapping, whose keys are texts. -/
def fieldsOf : Node → Option (List (String × Node))
  | .mapping entries => entries.mapM (fun entry =>
      (textOf entry.1).map (fun name => (name, entry.2)))
  | node => if isAbsent node then some [] else none

/-- The value of a field, with a default where it is not given. -/
def fieldOr {Value : Type} (fields : List (String × Node)) (name : String)
    (read : Node → Option Value) (default : Value) : Option Value :=
  match fields.filter (fun field => field.1 == name) with
  | [] => some default
  | [field] => read field.2
  | _ => none

/-! ## Settings -/

/-- Read the settings of the solver. -/
def SolverSettings.ofNode (node : Node) : Option SolverSettings := do
  let fields ← fieldsOf node
  return {
    program := ← fieldOr fields "program" textOf standard.program
    arguments := ← fieldOr fields "args" textsOf standard.arguments
    logic := ← fieldOr fields "logic" optionalTextOf standard.logic
    checkTimeoutMs := ← fieldOr fields "check_timeout_ms"
      (numberOf (wordCount 64)) standard.checkTimeoutMs }

/-- Read the settings of the search. -/
def SearchSettings.ofNode (node : Node) : Option SearchSettings := do
  let fields ← fieldsOf node
  return {
    maxBlockVisits := ← fieldOr fields "max_block_visits"
      (numberOf (wordCount 64)) standard.maxBlockVisits }

namespace Configuration

/-- Read all settings. -/
def ofNode (node : Node) : Option Configuration := do
  let fields ← fieldsOf node
  return {
    version := ← (← fieldOr fields "version"
      (fun node => (numberOf (wordCount 32) node).map some) none)
    solver := ← fieldOr fields "solver" SolverSettings.ofNode .standard
    search := ← fieldOr fields "executor" SearchSettings.ofNode .standard }

/-- Read settings from a text and check them. -/
def read (text : String) : Except SettingsError Configuration :=
  match (Node.read text).bind ofNode with
  | none => .error .malformed
  | some settings =>
    match settings.validate with
    | .ok () => .ok settings
    | .error error => .error error

/-- Read settings from a file: its text, or why there is none. -/
def load (content : Except IoFault String) :
    Except SettingsError Configuration :=
  match content with
  | .ok text => read text
  | .error fault => .error (.io fault)

end Configuration

end FlowWitness.Settings
