import FlowWitness.Failure
import FlowWitness.Solver.Basic

/-!
# Dialogues

A conversation with a solver: a computation that may call the solver and may
fail.  The dialogue keeps the solver's state and every call made so far with
its answer, whether or not the conversation ends in a failure.
-/

namespace FlowWitness.Solver

open FlowWitness.Smt

/-- A call to a solver with its answer. -/
inductive Interaction where
  | opened (answer : Except SolverError Unit)
  | asserted (term : Term) (answer : Except SolverError Unit)
  | checked (answer : Except SolverError Verdict)
  | evaluated (term : Term) (answer : Except SolverError ModelValue)
  | closed (answer : Except SolverError Unit)

/-- The state of a solver and the calls made to it so far, the latest first. -/
structure Dialogue (State : Type) where
  solver : State
  calls : List Interaction

/-- A computation that talks to a solver. -/
def Conversation (State Result : Type) : Type :=
  Dialogue State → Except Failure Result × Dialogue State

namespace Conversation

variable {State Result Next : Type}

/-- Say nothing and give a result. -/
def done (result : Result) : Conversation State Result :=
  fun dialogue => (.ok result, dialogue)

/-- Say nothing and fail. -/
def fail (failure : Failure) : Conversation State Result :=
  fun dialogue => (.error failure, dialogue)

/-- Go on with the result of a conversation, unless it fails. -/
def andThen (first : Conversation State Result)
    (next : Result → Conversation State Next) : Conversation State Next :=
  fun dialogue =>
    match first dialogue with
    | (.ok result, after) => next result after
    | (.error failure, after) => (.error failure, after)

instance : Monad (Conversation State) where
  pure := done
  bind := andThen

/-- Make one call, and note it with its answer. -/
def call (act : State → Except SolverError Result × State)
    (note : Except SolverError Result → Interaction) :
    Conversation State Result :=
  fun dialogue =>
    let (answer, after) := act dialogue.solver
    let dialogue := ⟨after, note answer :: dialogue.calls⟩
    match answer with
    | .ok result => (.ok result, dialogue)
    | .error error => (.error (.solver error), dialogue)

/-- Open a session. -/
def openSession (solver : Backend State) : Conversation State Unit :=
  call solver.openSession .opened

/-- Assert one term. -/
def assertTerm (solver : Backend State) (term : Term) :
    Conversation State Unit :=
  call (solver.assertTerm term) (.asserted term)

/-- Assert terms in order. -/
def assertAll (solver : Backend State) : List Term → Conversation State Unit
  | [] => done ()
  | term :: rest =>
    andThen (assertTerm solver term) (fun _ => assertAll solver rest)

/-- Decide what has been asserted. -/
def checkSat (solver : Backend State) : Conversation State Verdict :=
  call solver.checkSat .checked

/-- The value of a term in the model. -/
def evaluate (solver : Backend State) (term : Term) :
    Conversation State ModelValue :=
  call (solver.evaluate term) (.evaluated term)

/-- Close the session. -/
def closeSession (solver : Backend State) : Conversation State Unit :=
  call solver.closeSession .closed

end Conversation

/-! ## Sessions of a dialogue -/

namespace Interaction

/-- Does the call begin a session? -/
def begins : Interaction → Bool
  | opened (.ok ()) => true
  | _ => false

/-- The term that the call asserts, if it succeeds. -/
def asserted? : Interaction → Option Term
  | asserted term (.ok ()) => some term
  | _ => none

/-- The verdict that the call gives. -/
def verdict? : Interaction → Option Verdict
  | checked (.ok verdict) => some verdict
  | _ => none

/-- The term whose value the call asks for, whether or not it gets one. -/
def evaluated? : Interaction → Option Term
  | evaluated term _ => some term
  | _ => none

/-- Does the call end a session? -/
def ends : Interaction → Bool
  | closed (.ok ()) => true
  | _ => false

/--
The calls before the first session, and the calls of each session after the
one that begins it.
-/
def split : List Interaction → List Interaction × List (List Interaction)
  | [] => ([], [])
  | call :: rest =>
    let (before, sessions) := split rest
    if call.begins then ([], before :: sessions)
    else (call :: before, sessions)

end Interaction

/-- What happened in one session. -/
structure SessionRecord where
  asserted : List Term
  verdict : Option Verdict
  evaluated : List Term
  closed : Bool
  deriving DecidableEq, Repr

/-- The record of a session with the given calls; the last verdict counts. -/
def SessionRecord.ofCalls (calls : List Interaction) : SessionRecord :=
  ⟨calls.filterMap Interaction.asserted?,
    (calls.filterMap Interaction.verdict?).getLast?,
    calls.filterMap Interaction.evaluated?,
    calls.any Interaction.ends⟩

namespace Dialogue

variable {State : Type}

/-- A dialogue that has not begun. -/
def start (solver : State) : Dialogue State := ⟨solver, []⟩

/-- The calls of a dialogue in order. -/
def history (dialogue : Dialogue State) : List Interaction :=
  dialogue.calls.reverse

/-- The sessions of a dialogue. -/
def sessions (dialogue : Dialogue State) : List SessionRecord :=
  (Interaction.split dialogue.history).2.map SessionRecord.ofCalls

end Dialogue

end FlowWitness.Solver
