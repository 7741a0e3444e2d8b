import FlowWitness.Solver.StandIn

/-!
# Steps of a session

A session keeps books: the symbols that it has introduced, what its last check
found, and whether it has stopped its process.  Sending a command and reading
a response concern the process and its output, and leave the books as they
are.  Calls are made of these steps, and runs of calls.
-/

namespace FlowWitness.Solver

open FlowWitness.Settings
open FlowWitness.Smt
open FlowWitness.Text

/-! ## Processes -/

/-- A process together with the commands that it has taken, in order. -/
structure Noted (Peer : Type) where
  peer : Peer
  taken : List String
  deriving DecidableEq, Repr

/-- The same process, with a note of every command that it takes. -/
def SolverProcess.noting {Peer : Type} (process : SolverProcess Peer) :
    SolverProcess (Noted Peer) where
  accept command noted :=
    match process.accept command noted.peer with
    | (.ok reaction, peer) => (.ok reaction, ⟨peer, noted.taken ++ [command]⟩)
    | (.error fault, peer) => (.error fault, ⟨peer, noted.taken⟩)

/--
A process with its answers at hand: each query takes the next one, and the
output ends with them.
-/
def answering : SolverProcess (List String) where
  accept command answers :=
    if StandIn.isQuery command then
      match answers with
      | [] => (.ok ⟨[], true⟩, [])
      | answer :: rest => (.ok ⟨glyphs answer, false⟩, rest)
    else (.ok ⟨[], false⟩, answers)

namespace Session

variable {Peer : Type} {process : SolverProcess Peer} {limit : Option Nat}

/-! ## Books -/

/-- The books of two sessions are the same. -/
structure SameBooks (before after : Session Peer) : Prop where
  declared : after.declared = before.declared
  lastCheck : after.lastCheck = before.lastCheck
  stopped : after.stopped = before.stopped

theorem SameBooks.refl (session : Session Peer) : SameBooks session session :=
  ⟨rfl, rfl, rfl⟩

theorem SameBooks.trans
    {before middle after : Session Peer}
    (first : SameBooks before middle) (second : SameBooks middle after) :
    SameBooks before after :=
  ⟨second.declared.trans first.declared, second.lastCheck.trans first.lastCheck,
    second.stopped.trans first.stopped⟩

theorem sameBooks_receive
    (session : Session Peer) (peer : Peer) (reaction : Reaction) :
    SameBooks session (session.receive peer reaction) := by
  rw [receive]
  split
  · exact ⟨rfl, rfl, rfl⟩
  · exact ⟨rfl, rfl, rfl⟩

theorem sameBooks_send
    (process : SolverProcess Peer) (command : String)
    (session : Session Peer) :
    SameBooks session (session.send process command).2 := by
  rw [send]
  split
  · exact .refl session
  · split
    · exact sameBooks_receive ..
    · exact ⟨rfl, rfl, rfl⟩

/-- Reading a response leaves the process alone, too. -/
theorem sameBooks_readResponse (session : Session Peer) :
    SameBooks session session.readResponse.2 ∧
      session.readResponse.2.peer = session.peer := by
  rw [readResponse]
  split
  · exact ⟨⟨rfl, rfl, rfl⟩, rfl⟩
  · exact ⟨⟨rfl, rfl, rfl⟩, rfl⟩
  · exact ⟨⟨rfl, rfl, rfl⟩, rfl⟩
  · exact ⟨.refl session, rfl⟩

/-- A query sends its command, and leaves the rest to reading. -/
theorem query_after_send
    (process : SolverProcess Peer) (command : String)
    (session : Session Peer) :
    SameBooks (session.send process command).2
        (session.query process command).2 ∧
      (session.query process command).2.peer =
        (session.send process command).2.peer := by
  rw [query]
  rcases session.send process command with ⟨result, sent⟩
  cases result with
  | error error => exact ⟨.refl sent, rfl⟩
  | ok _ =>
      have read := sameBooks_readResponse sent
      rcases received : sent.readResponse with ⟨response, after⟩
      rw [received] at read
      cases response with
      | error error => simpa only [received] using read
      | ok text => simpa only [received] using read

/-! ## Introducing symbols -/

/-- Introducing a symbol says nothing about checks. -/
theorem lastCheck_declare
    (process : SolverProcess Peer) (symbol : FunctionSymbol)
    (session : Session Peer) :
    (session.declare process symbol).2.lastCheck = session.lastCheck := by
  rw [declare]
  split
  · rfl
  · split
    · rfl
    · next declaration _ =>
        have books := sameBooks_send process declaration session
        generalize session.send process declaration = step at books ⊢
        rcases step with ⟨result, sent⟩
        cases result with
        | error error => exact books.lastCheck
        | ok _ => exact books.lastCheck

theorem lastCheck_declareAll
    (process : SolverProcess Peer) (symbols : List FunctionSymbol)
    (session : Session Peer) :
    (declareAll process symbols session).2.lastCheck = session.lastCheck := by
  induction symbols generalizing session with
  | nil => rfl
  | cons symbol rest induction =>
      have here := lastCheck_declare process symbol session
      rw [declareAll]
      generalize session.declare process symbol = step at here ⊢
      rcases step with ⟨result, declared⟩
      cases result with
      | error error => exact here
      | ok _ => exact (induction declared).trans here

/-! ## Checks -/

/-- A check sends its command; then it changes no more than its own books. -/
theorem checkSat_after_send
    (process : SolverProcess Peer) (limit : Option Nat)
    (session : Session Peer) :
    (session.checkSat process limit).2.declared =
        (session.send process "(check-sat)").2.declared ∧
      (session.checkSat process limit).2.peer =
        (session.send process "(check-sat)").2.peer := by
  rw [checkSat]
  generalize session.send process "(check-sat)" = step
  rcases step with ⟨result, sent⟩
  cases result with
  | error error => exact ⟨rfl, rfl⟩
  | ok _ =>
      rcases sameBooks_readResponse sent with ⟨books, peer⟩
      simp only
      split
      · next response read received =>
          rw [received] at books peer
          rw [takeVerdict]
          split
          · exact ⟨books.declared, peer⟩
          · exact ⟨books.declared, peer⟩
      · next read _ received =>
          rw [received] at books peer
          exact ⟨books.declared, peer⟩
      · next error read received _ =>
          rw [received] at books peer
          exact ⟨books.declared, peer⟩

/-- What a check leaves behind: its verdict, or nothing new if it fails. -/
theorem lastCheck_checkSat
    (process : SolverProcess Peer) (limit : Option Nat)
    (session : Session Peer) :
    (session.checkSat process limit).2.lastCheck =
      match (session.checkSat process limit).1 with
      | .ok verdict => some verdict
      | .error _ => session.lastCheck := by
  have books := sameBooks_send process "(check-sat)" session
  rw [checkSat]
  generalize session.send process "(check-sat)" = step at books ⊢
  rcases step with ⟨result, sent⟩
  cases result with
  | error error => exact books.lastCheck
  | ok _ =>
      have kept := (books.trans (sameBooks_readResponse sent).1).lastCheck
      simp only
      split
      · next response read received =>
          rw [received] at kept
          rw [takeVerdict]
          split
          · rfl
          · exact kept
      · rfl
      · next error read received _ =>
          rw [received] at kept
          exact kept

/-! ## Beginnings -/

/-- A session with a process that has just been started, after the greeting. -/
def begun (process : SolverProcess Peer) (settings : SolverSettings)
    (peer : Peer) : Session Peer :=
  ((fresh peer).greet process settings).2

theorem sameBooks_begun
    (process : SolverProcess Peer) (settings : SolverSettings) (peer : Peer) :
    SameBooks (fresh peer) (begun process settings peer) := by
  have first := sameBooks_send process "(set-option :produce-models true)"
    (fresh peer)
  rw [begun, greet]
  generalize (fresh peer).send process "(set-option :produce-models true)" =
    step at first ⊢
  rcases step with ⟨result, sent⟩
  cases result with
  | error error => exact first
  | ok _ =>
      cases settings.logic with
      | none => exact first
      | some logic => exact first.trans (sameBooks_send ..)

/-! ## Runs -/

theorem performAll_cons
    {call : SessionCall} (running : call ≠ .close) (rest : List SessionCall)
    (session : Session Peer) :
    session.performAll process limit (call :: rest) =
      ((session.perform process limit call).1 ::
          ((session.perform process limit call).2.performAll process limit
            rest).1,
        ((session.perform process limit call).2.performAll process limit
          rest).2) := by
  cases call with
  | close => exact absurd rfl running
  | assertTerm term => rfl
  | checkSat => rfl
  | evaluate term => rfl

/-- Until it is closed, a session goes on where it was. -/
theorem performAll_append
    {early : List SessionCall} (running : .close ∉ early)
    (late : List SessionCall) (session : Session Peer) :
    session.performAll process limit (early ++ late) =
      ((session.performAll process limit early).1 ++
          ((session.performAll process limit early).2.performAll process limit
            late).1,
        ((session.performAll process limit early).2.performAll process limit
          late).2) := by
  induction early generalizing session with
  | nil => rfl
  | cons call rest induction =>
      rw [List.mem_cons, not_or] at running
      have onward : call ≠ .close := fun same => running.1 same.symm
      rw [List.cons_append, performAll_cons onward, performAll_cons onward,
        induction running.2]
      rfl

/-- The session after some calls. -/
def after (process : SolverProcess Peer) (limit : Option Nat)
    (session : Session Peer) (calls : List SessionCall) : Session Peer :=
  (session.performAll process limit calls).2

theorem after_append
    {early : List SessionCall} (running : .close ∉ early)
    (late : List SessionCall) (session : Session Peer) :
    session.after process limit (early ++ late) =
      (session.after process limit early).after process limit late := by
  rw [after, performAll_append running]
  rfl

theorem after_cons
    {call : SessionCall} (onward : call ≠ .close) (rest : List SessionCall)
    (session : Session Peer) :
    session.after process limit (call :: rest) =
      (session.perform process limit call).2.after process limit rest := by
  rw [after, performAll_cons onward]
  rfl

theorem after_concat
    {calls : List SessionCall} (running : .close ∉ calls) {call : SessionCall}
    (onward : call ≠ .close) (session : Session Peer) :
    session.after process limit (calls ++ [call]) =
      ((session.after process limit calls).perform process limit call).2 := by
  rw [after_append running, after_cons onward]
  rfl

theorem length_performAll
    {calls : List SessionCall} (running : .close ∉ calls)
    (session : Session Peer) :
    (session.performAll process limit calls).1.length = calls.length := by
  induction calls generalizing session with
  | nil => rfl
  | cons call rest induction =>
      rw [List.mem_cons, not_or] at running
      rw [performAll_cons (fun same => running.1 same.symm), List.length_cons,
        induction running.2, List.length_cons]

/-- The calls with their replies. -/
def exchanges (process : SolverProcess Peer) (limit : Option Nat)
    (session : Session Peer) (calls : List SessionCall) :
    List (SessionCall × SessionReply) :=
  calls.zip (session.performAll process limit calls).1

theorem exchanges_concat
    {calls : List SessionCall} (running : .close ∉ calls) {call : SessionCall}
    (onward : call ≠ .close) (session : Session Peer) :
    session.exchanges process limit (calls ++ [call]) =
      session.exchanges process limit calls ++
        [(call, ((session.after process limit calls).perform process limit
          call).1)] := by
  rw [exchanges, performAll_append running, performAll_cons onward,
    List.zip_append (length_performAll running session).symm]
  rfl

end Session

end FlowWitness.Solver
