import FlowWitness.Proofs.Exploration.SessionDiscipline
import FlowWitness.Proofs.Program.BitPatterns
import FlowWitness.Solver.Session

/-!
# The values in a witness

A witness has a constant for every parameter, made of the value that the
solver gave.  At an integer type any number will do: the constant is the one
of the type that is congruent to it, so a value that is a pattern of the
type's width, or a number of its range, is kept as it is, and every other
number is altered or taken at another width.  A value that is no number is
refused, and there is no witness then.
-/

namespace FlowWitness

open FlowWitness.Program
open FlowWitness.Solver

/-! ## Values and constants -/

namespace Smt.ModelValue

/-- The number of a bit-vector or an integer. -/
def number? : ModelValue → Option Int
  | bitVec value _ => some value
  | int value => some value
  | _ => none

/--
The value is the constant of the given width and nothing else: its pattern at
that width, or its number.
-/
def Represents (bits : Nat) (constant : Constant) : ModelValue → Prop
  | bitVec value width => width = bits ∧ value = constant.toBits
  | int value => constant.number? = some value
  | _ => False

/-- The value is a pattern of the type's width, or a number of its range. -/
def Fits (isSigned : Bool) (bits : Nat) : ModelValue → Prop
  | bitVec value width => width = bits ∧ value < wordCount bits
  | int value => (DataType.integer isSigned bits).Holds value
  | _ => False

instance (bits : Nat) (constant : Constant) :
    (value : ModelValue) → Decidable (value.Represents bits constant)
  | bitVec value width =>
    inferInstanceAs (Decidable (width = bits ∧ value = constant.toBits))
  | int value => inferInstanceAs (Decidable (constant.number? = some value))
  | bool _ => inferInstanceAs (Decidable False)
  | string _ => inferInstanceAs (Decidable False)

variable {value : ModelValue} {isSigned : Bool} {bits : Nat}
  {constant : Constant} {number : Int}

/-- A number has a pattern, which is congruent to it. -/
theorem exists_bits?
    (numbered : value.number? = some number) :
    ∃ raw : Nat, value.bits? = some raw ∧
      (raw : Int) ≡ number [ZMOD wordCount patternBits] := by
  cases value with
  | bool | string => cases numbered
  | bitVec pattern width =>
      cases numbered
      exact ⟨pattern, rfl, rfl⟩
  | int integer =>
      cases numbered
      have positive : (0 : Int) < wordCount patternBits :=
        Int.natCast_pos.mpr (wordCount_pos _)
      refine ⟨_, rfl, ?_⟩
      rw [Int.toNat_of_nonneg (Int.emod_nonneg _ (Int.ne_of_gt positive))]
      exact Int.mod_modEq _ _

theorem toConstant?_of_number?
    (numbered : value.number? = some number) :
    value.toConstant? (.integer isSigned bits) =
      value.bits?.bind (fun raw =>
        Constant.ofBits? raw (.integer isSigned bits)) := by
  cases value with
  | bool | string => cases numbered
  | bitVec | int => rfl

theorem toConstant?_eq_none (numberless : value.number? = none) :
    value.toConstant? (.integer isSigned bits) = none := by
  cases value with
  | bool | string => rfl
  | bitVec | int => cases numberless

/-- A number is made into the constant of the type that is congruent to it. -/
theorem exists_toConstant?_of_number?
    (positive : 1 ≤ bits) (small : bits ≤ maxIntegerBits)
    (numbered : value.number? = some number) :
    ∃ constant, value.toConstant? (.integer isSigned bits) = some constant ∧
      constant.Reduces isSigned bits number := by
  rcases exists_bits? numbered with ⟨raw, patterned, congruent⟩
  rcases Constant.exists_ofBits? raw isSigned positive small with
    ⟨constant, named, reduces⟩
  have narrower : (wordCount bits : Int) ∣ wordCount patternBits :=
    Int.natCast_dvd_natCast.mpr
      (Nat.pow_dvd_pow 2 (Nat.le_trans small (by decide)))
  refine ⟨constant, ?_, reduces.congr (congruent.of_dvd narrower)⟩
  rw [toConstant?_of_number? numbered, patterned, Option.bind_some, named]

theorem toConstant?_eq_some_iff
    (positive : 1 ≤ bits) (small : bits ≤ maxIntegerBits) :
    value.toConstant? (.integer isSigned bits) = some constant ↔
      ∃ number, value.number? = some number ∧
        constant.Reduces isSigned bits number := by
  cases numbered : value.number? with
  | none => simp [toConstant?_eq_none numbered]
  | some number =>
      rcases exists_toConstant?_of_number? positive small numbered with
        ⟨found, converted, reduces⟩
      rw [converted, Option.some.injEq]
      constructor
      · rintro rfl
        exact ⟨number, rfl, reduces⟩
      · rintro ⟨same, given, otherReduces⟩
        cases given
        exact reduces.unique positive otherReduces

/-- A value is the constant made of it exactly if it fits the type. -/
theorem represents_iff_fits
    (positive : 1 ≤ bits) (small : bits ≤ maxIntegerBits)
    (converted : value.toConstant? (.integer isSigned bits) = some constant) :
    value.Represents bits constant ↔ value.Fits isSigned bits := by
  rcases (toConstant?_eq_some_iff positive small).mp converted with
    ⟨number, numbered, typed, reduced, found, holds, congruent⟩
  cases value with
  | bool | string => cases numbered
  | bitVec pattern width =>
      cases numbered
      have bitsOf : constant.toBits = pattern % wordCount bits := by
        have cut := Constant.natCast_toBits typed found small
        rw [congruent] at cut
        exact_mod_cast cut
      refine and_congr_right (fun _ => ?_)
      rw [bitsOf]
      constructor
      · intro same
        rw [same]
        exact Nat.mod_lt _ (wordCount_pos bits)
      · exact fun below => (Nat.mod_eq_of_lt below).symm
  | int integer =>
      cases numbered
      simp only [Represents, Fits, found, Option.some.injEq]
      constructor
      · rintro rfl
        exact holds
      · exact fun fits => DataType.eq_of_holds positive holds fits congruent

end Smt.ModelValue

/-! ## Witnesses -/

namespace Exploration

open FlowWitness.Graph
open FlowWitness.Smt

section Searches

variable {State : Type} {solver : Backend State}

/-- The command that asks for a term's value. -/
def valueCommand (term : Term) : String := "(get-value (" ++ term.text ++ "))"

/-- What becomes of the value that the solver gives to a parameter. -/
theorem parameterValue_of_evaluate
    {parameter : Variable} {key : SymbolKey} {before : Dialogue State}
    {after : State} {value : ModelValue} (named : keyOf parameter = .ok key)
    (evaluated : solver.evaluate (key.versioned 0) before.solver =
      (.ok value, after)) :
    (parameterValue solver parameter before).1 =
      match value.toConstant? parameter.dataType with
      | some constant => .ok constant
      | none => .error (.solver (.unexpectedResponse
          (valueCommand (key.versioned 0)) value.text)) := by
  simp only [parameterValue, named, Conversation.andThen,
    Conversation.evaluate, Conversation.call, evaluated]
  cases value.toConstant? parameter.dataType <;> rfl

theorem Check.call_mem_calls
    {parameters : List Variable} (check : Check parameters)
    {reading : Reading} (member : reading ∈ check.readings) :
    reading.call ∈ check.calls := by
  have read : reading.call ∈ check.readings.map Reading.call :=
    List.mem_map_of_mem member
  simp [calls, held, read]

/-- The entries of a witness are what was read of the model. -/
theorem Explored.exists_readings
    {graph : FlowGraph} {targets : List BlockId} {maxVisits : Nat}
    {start : State} {log : List Turn} {report : Report}
    {after : Dialogue State} {witness : Witness}
    (explored :
      Explored solver graph targets maxVisits start log (.ok report) after)
    (reached : report.outcome = .reachable witness) :
    ∃ readings : List Reading, witness.values = readings.map Reading.entry ∧
      ∀ reading ∈ readings, reading.call ∈ after.history := by
  cases explored with
  | unranked outside => cases reached
  | searched entered stops =>
      cases stops with
      | exhausted turns empty =>
          rw [Run.exhausted] at reached
          split at reached <;> cases reached
      | finished turns popped stepped =>
          rcases Problem.history_of_step_eq_finished stepped with
            ⟨_, check, _, _, outcome, added⟩
          rw [reached, Outcome.reachable.injEq] at outcome
          refine ⟨check.readings, by rw [outcome], ?_⟩
          intro reading member
          rw [added]
          exact List.mem_append_right _ (check.call_mem_calls member)

end Searches

/--
At an integer type of one to sixty-four bits, a value is made into a constant
exactly if it is a number, and then into the constant of the type that is
congruent to it; that is what the value says if it fits the type, and only
then.  A parameter whose value is no number is refused with that value, and
the constants of a witness are all made in this way of values that the solver
gave.
-/
theorem witness_values_reduce_to_their_types
    (isSigned : Bool) {bits : Nat} (positive : 1 ≤ bits) (small : bits ≤ 64) :
    (∀ (value : ModelValue) (constant : Constant),
      value.toConstant? (.integer isSigned bits) = some constant ↔
        ∃ number, value.number? = some number ∧
          constant.Reduces isSigned bits number) ∧
    (∀ (value : ModelValue) (constant : Constant),
      value.toConstant? (.integer isSigned bits) = some constant →
        (value.Represents bits constant ↔ value.Fits isSigned bits)) ∧
    (∀ (State : Type) (solver : Backend State) (parameter : Variable)
      (key : SymbolKey) (before : Dialogue State) (after : State)
      (value : ModelValue),
      parameter.dataType = .integer isSigned bits →
      keyOf parameter = .ok key →
      solver.evaluate (key.versioned 0) before.solver = (.ok value, after) →
      value.number? = none →
      (parameterValue solver parameter before).1 =
        .error (.solver (.unexpectedResponse
          (valueCommand (key.versioned 0)) value.text))) ∧
    ∀ (State : Type) (solver : Backend State) (graph : FlowGraph)
      (targets : List BlockId) (maxVisits : Nat) (start : State)
      (report : Report) (after : Dialogue State) (witness : Witness),
      explore solver graph targets maxVisits (.start start) =
        (.ok report, after) →
      report.outcome = .reachable witness →
      ∀ entry ∈ witness.values, entry.1.dataType = .integer isSigned bits →
        ∃ key value number, keyOf entry.1 = .ok key ∧
          .evaluated (key.versioned 0) (.ok value) ∈ after.history ∧
          value.number? = some number ∧
          entry.2.Reduces isSigned bits number := by
  have converts : ∀ (value : ModelValue) (constant : Constant),
      value.toConstant? (.integer isSigned bits) = some constant ↔
        ∃ number, value.number? = some number ∧
          constant.Reduces isSigned bits number :=
    fun _ _ => ModelValue.toConstant?_eq_some_iff positive small
  refine ⟨converts,
    fun _ _ => ModelValue.represents_iff_fits positive small, ?_, ?_⟩
  · intro State solver parameter key before after value typed named evaluated
      numberless
    rw [parameterValue_of_evaluate named evaluated, typed,
      ModelValue.toConstant?_eq_none numberless]
  · intro State solver graph targets maxVisits start report after witness
      found reached entry member typed
    rcases exists_explored solver graph targets maxVisits start with
      ⟨log, explored⟩
    rw [found] at explored
    rcases explored.exists_readings reached with ⟨readings, read, called⟩
    rw [read] at member
    rcases List.mem_map.mp member with ⟨reading, among, rfl⟩
    have converted := reading.converted
    rw [show reading.parameter.dataType = .integer isSigned bits from typed,
      converts] at converted
    rcases converted with ⟨number, numbered, reduces⟩
    exact ⟨reading.key, reading.value, number, reading.named,
      called reading among, numbered, reduces⟩

/-- A byte with all bits set is minus one, and nothing is lost. -/
theorem all_ones_kept :
    (ModelValue.bitVec 255 8).toConstant? (.integer true 8) =
        some (.signed (-1) 8) ∧
      (ModelValue.bitVec 255 8).Represents 8 (.signed (-1) 8) := by
  have converted : (ModelValue.bitVec 255 8).toConstant? (.integer true 8) =
      some (.signed (-1) 8) := by decide
  have exactly := (witness_values_reduce_to_their_types true
    (by decide : 1 ≤ 8) (by decide)).2.1 (.bitVec 255 8) _ converted
  exact ⟨converted, exactly.mpr ⟨rfl, by decide⟩⟩

/-! ## A value that does not fit -/

/-- The parameter of the graph below, a byte. -/
def pressure : Variable := ⟨0, "pressure", .integer false 8⟩

/-- Opens at a pressure above 100: block 3 is the open valve. -/
def valve : FlowGraph where
  id := 0
  parameters := [pressure]
  returns := []
  inner := [some (.jump (.binary .greater (.var pressure)
    (.constant (.unsigned 100 8)))), none]
  edges := [⟨0, 2, .unconditional⟩, ⟨2, 3, .onTrue⟩, ⟨2, 1, .onFalse⟩,
    ⟨3, 1, .unconditional⟩]

/-- A solver that finds a model with the given value for every term. -/
def finding (value : ModelValue) : Backend CallCounts :=
  SolverScript.solver ⟨[], .ok .sat, [.ok value], []⟩

/--
A pressure of 300, given in sixteen bits, is reported as the byte 44, at which
the valve stays shut.
-/
theorem pressure_silently_altered :
    Session.takeValue "(get-value (pressure!0@0))"
        "((pressure!0@0 #x012c))" = .ok (.bitVec 300 16) ∧
      (ModelValue.bitVec 300 16).toConstant? (.integer false 8) =
        some (.unsigned 44 8) ∧
      ¬ (ModelValue.bitVec 300 16).Represents 8 (.unsigned 44 8) ∧
      (explore (finding (.bitVec 300 16)) valve [valve.handle 3] 1
        (.start .none)).1 =
          .ok ⟨.reachable ⟨[(pressure, .unsigned 44 8)]⟩,
            ⟨1, 3, 3, 3, 1, 0, 0⟩⟩ := by
  decide +kernel

end Exploration

end FlowWitness
