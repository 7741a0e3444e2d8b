import FlowWitness.Solver.Basic

/-!
# Scripted solvers

A solver whose answers are written down beforehand.  Its state is how many
calls of each kind it has had, failed ones included, over all sessions.
-/

namespace FlowWitness.Solver

open FlowWitness.Smt

/-- The calls that a script can make fail. -/
inductive FaultPoint where
  | opening
  | asserting
  | closing
  deriving DecidableEq, Repr

/--
The answers of a solver: to the checks in turn and to all further checks, to
the evaluations in turn, and which calls fail, counted from zero by kind.
-/
structure SolverScript where
  checks : List (Except SolverError Verdict)
  otherwise : Except SolverError Verdict
  values : List (Except SolverError ModelValue)
  faults : List (FaultPoint × Nat)

/-- How many calls of each kind there have been. -/
structure CallCounts where
  opens : Nat
  asserts : Nat
  checks : Nat
  evaluations : Nat
  closes : Nat
  deriving DecidableEq, Repr

/-- No calls yet. -/
def CallCounts.none : CallCounts := ⟨0, 0, 0, 0, 0⟩

/-- The value of a term once the script has run out: zero, or `false`. -/
def defaultValue (term : Term) : ModelValue :=
  match term.sort with
  | .bitVec width => .bitVec 0 width
  | _ => .bool false

namespace SolverScript

/-- Fail if the script says so of this call. -/
def attempt (script : SolverScript) (point : FaultPoint) (count : Nat) :
    Except SolverError Unit :=
  if script.faults.contains (point, count) then .error .processExited
  else .ok ()

/-- The solver that answers by the script. -/
def solver (script : SolverScript) : Backend CallCounts where
  openSession counts :=
    (script.attempt .opening counts.opens,
      { counts with opens := counts.opens + 1 })
  assertTerm _ counts :=
    (script.attempt .asserting counts.asserts,
      { counts with asserts := counts.asserts + 1 })
  checkSat counts :=
    ((script.checks[counts.checks]?).getD script.otherwise,
      { counts with checks := counts.checks + 1 })
  evaluate term counts :=
    ((script.values[counts.evaluations]?).getD (.ok (defaultValue term)),
      { counts with evaluations := counts.evaluations + 1 })
  closeSession counts :=
    (script.attempt .closing counts.closes,
      { counts with closes := counts.closes + 1 })

end SolverScript

end FlowWitness.Solver
