import FlowWitness.Proofs.Solver.SessionSteps
import Mathlib.Data.List.Induction

/-!
# Access to the model

A session gives values only while it takes itself to hold a model.  It holds
one from a check that finds it until a check with another verdict, or until a
term is asserted.  A check that fails tells nothing, and a term is not yet
asserted when introducing its symbols fails: then the session keeps what it
held.  In every other state it answers that there is no model, and sends
nothing.

So where calls fail, a session can give values though its last check found
nothing.  Where none fails, it gives values only if the last check found a
model and nothing has been asserted since.
-/

namespace FlowWitness.Solver

open FlowWitness.Settings
open FlowWitness.Smt
open FlowWitness.Text

namespace Session

variable {Peer : Type} {process : SolverProcess Peer} {limit : Option Nat}

/-! ## The verdict that a call leaves -/

/-- An assertion whose symbols cannot be introduced ends there. -/
theorem assertTerm_of_error
    {term : Term} {session : Session Peer} {error : SolverError}
    (refused : (declareAll process term.declarations session).1 =
      .error error) :
    session.assertTerm process term =
      (.error error, (declareAll process term.declarations session).2) := by
  rw [assertTerm]
  generalize declareAll process term.declarations session = step at refused ⊢
  rcases step with ⟨result, declared⟩
  subst refused
  rfl

theorem lastCheck_assertTerm_of_error
    {term : Term} {session : Session Peer} {error : SolverError}
    (refused : (declareAll process term.declarations session).1 =
      .error error) :
    (session.assertTerm process term).2.lastCheck = session.lastCheck := by
  rw [assertTerm_of_error refused]
  exact lastCheck_declareAll process term.declarations session

theorem lastCheck_assertTerm_of_ok
    {term : Term} {session : Session Peer}
    (introduced : (declareAll process term.declarations session).1 = .ok ()) :
    (session.assertTerm process term).2.lastCheck = none := by
  rw [assertTerm]
  generalize declareAll process term.declarations session = step
    at introduced ⊢
  rcases step with ⟨result, declared⟩
  subst introduced
  exact (sameBooks_send ..).lastCheck

theorem lastCheck_evaluate
    (process : SolverProcess Peer) (term : Term) (session : Session Peer) :
    (session.evaluate process term).2.lastCheck = session.lastCheck := by
  rw [evaluate]
  split
  · have kept := lastCheck_declareAll process term.declarations session
    generalize declareAll process term.declarations session = step at kept ⊢
    rcases step with ⟨result, declared⟩
    cases result with
    | error error => exact kept
    | ok _ =>
        have books := (sameBooks_send process
          ("(get-value (" ++ term.text ++ "))") declared).trans
          (query_after_send process _ declared).1
        exact books.lastCheck.trans kept
  · rfl

/-! ## Holding a model -/

/--
After these calls the session holds a model: a check found it, and every later
check failed, and every later assertion failed to introduce its symbols.
-/
inductive HoldsModel (process : SolverProcess Peer) (limit : Option Nat)
    (start : Session Peer) : List SessionCall → Prop where
  | found {calls : List SessionCall}
      (sat : ((start.after process limit calls).checkSat process limit).1 =
        .ok .sat) :
      HoldsModel process limit start (calls ++ [.checkSat])
  | unchecked {calls : List SessionCall} {error : SolverError}
      (held : HoldsModel process limit start calls)
      (failed : ((start.after process limit calls).checkSat process limit).1 =
        .error error) :
      HoldsModel process limit start (calls ++ [.checkSat])
  | unintroduced {calls : List SessionCall} {term : Term} {error : SolverError}
      (held : HoldsModel process limit start calls)
      (failed : (declareAll process term.declarations
        (start.after process limit calls)).1 = .error error) :
      HoldsModel process limit start (calls ++ [.assertTerm term])
  | evaluated {calls : List SessionCall} (term : Term)
      (held : HoldsModel process limit start calls) :
      HoldsModel process limit start (calls ++ [.evaluate term])

theorem lastCheck_of_holdsModel
    {start : Session Peer} {calls : List SessionCall}
    (running : .close ∉ calls) (held : start.HoldsModel process limit calls) :
    (start.after process limit calls).lastCheck = some .sat := by
  induction held with
  | found sat =>
      rw [List.mem_append, not_or] at running
      rw [after_concat running.1 (by simp)]
      change (checkSat process limit _).2.lastCheck = _
      rw [lastCheck_checkSat, sat]
  | unchecked held failed earlier =>
      rw [List.mem_append, not_or] at running
      rw [after_concat running.1 (by simp)]
      change (checkSat process limit _).2.lastCheck = _
      rw [lastCheck_checkSat, failed]
      exact earlier running.1
  | unintroduced held failed earlier =>
      rw [List.mem_append, not_or] at running
      rw [after_concat running.1 (by simp)]
      exact (lastCheck_assertTerm_of_error failed).trans (earlier running.1)
  | evaluated term held earlier =>
      rw [List.mem_append, not_or] at running
      rw [after_concat running.1 (by simp)]
      exact (lastCheck_evaluate process term _).trans (earlier running.1)

theorem holdsModel_of_lastCheck
    {start : Session Peer} (unchecked : start.lastCheck = none)
    {calls : List SessionCall} (running : .close ∉ calls)
    (sat : (start.after process limit calls).lastCheck = some .sat) :
    start.HoldsModel process limit calls := by
  induction calls using List.reverseRecOn with
  | nil =>
      change start.lastCheck = some .sat at sat
      simp [unchecked] at sat
  | append_singleton calls call induction =>
      rw [List.mem_append, not_or] at running
      have onward : call ≠ .close := by
        rintro rfl
        simp at running
      rw [after_concat running.1 onward] at sat
      cases call with
      | close => exact absurd rfl onward
      | assertTerm term =>
          cases result : (declareAll process term.declarations
              (start.after process limit calls)).1 with
          | error error =>
              have kept := lastCheck_assertTerm_of_error result
              exact .unintroduced (induction running.1 (kept.symm.trans sat))
                result
          | ok _ =>
              have dropped := lastCheck_assertTerm_of_ok result
              exact absurd (dropped.symm.trans sat) (by simp)
      | checkSat =>
          change (checkSat process limit _).2.lastCheck = _ at sat
          rw [lastCheck_checkSat] at sat
          cases result : ((start.after process limit calls).checkSat process
              limit).1 with
          | error error =>
              rw [result] at sat
              exact .unchecked (induction running.1 sat) result
          | ok verdict =>
              rw [result, Option.some.injEq] at sat
              exact .found (sat ▸ result)
      | evaluate term =>
          have kept := lastCheck_evaluate process term
            (start.after process limit calls)
          exact .evaluated term (induction running.1 (kept.symm.trans sat))

/-! ## Evaluation -/

theorem writeError_ne_noModel (fault : IoFault) :
    writeError fault ≠ .noModel := by
  cases fault <;> simp [writeError]

theorem send_ne_noModel
    (process : SolverProcess Peer) (command : String)
    (session : Session Peer) :
    (session.send process command).1 ≠ .error .noModel := by
  rw [send]
  split
  · simp
  · split
    · simp
    · simpa using writeError_ne_noModel _

theorem declare_ne_noModel
    (process : SolverProcess Peer) (symbol : FunctionSymbol)
    (session : Session Peer) :
    (session.declare process symbol).1 ≠ .error .noModel := by
  rw [declare]
  split
  · simp
  · split
    · simp
    · next declaration _ =>
        have sound := send_ne_noModel process declaration session
        generalize session.send process declaration = step at sound ⊢
        rcases step with ⟨result, sent⟩
        cases result with
        | error error => simpa using sound
        | ok _ => simp

theorem declareAll_ne_noModel
    (process : SolverProcess Peer) (symbols : List FunctionSymbol)
    (session : Session Peer) :
    (declareAll process symbols session).1 ≠ .error .noModel := by
  induction symbols generalizing session with
  | nil => simp [declareAll]
  | cons symbol rest induction =>
      have sound := declare_ne_noModel process symbol session
      rw [declareAll]
      generalize session.declare process symbol = step at sound ⊢
      rcases step with ⟨result, declared⟩
      cases result with
      | error error => simpa using sound
      | ok _ => exact induction declared

theorem readResponse_ne_noModel (session : Session Peer) :
    session.readResponse.1 ≠ .error .noModel := by
  rw [readResponse]
  split <;> simp

theorem responseError_ne_noModel (command response : String) :
    responseError command response ≠ .noModel := by
  rw [responseError]
  split
  · split <;> simp
  · simp

theorem takeValue_ne_noModel (command response : String) :
    takeValue command response ≠ .error .noModel := by
  have other := responseError_ne_noModel command response
  rw [takeValue]
  split
  · simpa using other
  · split
    · simp
    · simpa using other

theorem query_ne_noModel
    (process : SolverProcess Peer) (command : String)
    (session : Session Peer) :
    (session.query process command).1 ≠ .error .noModel := by
  have sound := send_ne_noModel process command session
  rw [query]
  generalize session.send process command = step at sound ⊢
  rcases step with ⟨result, sent⟩
  cases result with
  | error error => simpa using sound
  | ok _ =>
      have heard := readResponse_ne_noModel sent
      simp only
      generalize sent.readResponse = reading at heard ⊢
      rcases reading with ⟨response, read⟩
      cases response with
      | error error => simpa using heard
      | ok text => exact takeValue_ne_noModel command text

/-- With a model found, an evaluation has other reasons to fail, if any. -/
theorem evaluate_ne_noModel
    {session : Session Peer} (sat : session.lastCheck = some .sat)
    (process : SolverProcess Peer) (term : Term) :
    (session.evaluate process term).1 ≠ .error .noModel := by
  have sound := declareAll_ne_noModel process term.declarations session
  rw [evaluate, if_pos sat]
  generalize declareAll process term.declarations session = step at sound ⊢
  rcases step with ⟨result, declared⟩
  cases result with
  | error error => simpa using sound
  | ok _ => exact query_ne_noModel process _ declared

end Session

/-! ## What the replies show -/

/--
The last check found a model, and nothing has been asserted since.  The latest
exchange comes first.
-/
def promisesModel : List (SessionCall × SessionReply) → Bool
  | [] => false
  | (.checkSat, reply) :: _ => reply = .verdict .sat
  | (.assertTerm _, _) :: _ => false
  | (.evaluate _, _) :: earlier => promisesModel earlier
  | (.close, _) :: _ => false

/-- A check or an assertion that failed. -/
def Unanswered : SessionCall × SessionReply → Prop
  | (.checkSat, .failed _) => True
  | (.assertTerm _, .failed _) => True
  | _ => False

namespace Session

variable {Peer : Type} {process : SolverProcess Peer} {limit : Option Nat}

theorem holdsModel_of_promisesModel
    {start : Session Peer} {calls : List SessionCall}
    (running : .close ∉ calls)
    (promised : promisesModel
      (start.exchanges process limit calls).reverse = true) :
    start.HoldsModel process limit calls := by
  induction calls using List.reverseRecOn with
  | nil => simp [exchanges, promisesModel] at promised
  | append_singleton calls call induction =>
      rw [List.mem_append, not_or] at running
      have onward : call ≠ .close := by
        rintro rfl
        simp at running
      rw [exchanges_concat running.1 onward, List.reverse_concat] at promised
      cases call with
      | close => exact absurd rfl onward
      | assertTerm term => simp [promisesModel] at promised
      | checkSat =>
          cases result : ((start.after process limit calls).checkSat process
              limit).1 with
          | error error =>
              simp [promisesModel, perform, result, SessionReply.ofResult]
                at promised
          | ok verdict =>
              simp only [promisesModel, perform, result, SessionReply.ofResult,
                SessionReply.verdict.injEq, decide_eq_true_eq] at promised
              exact .found (promised ▸ result)
      | evaluate term => exact .evaluated term (induction running.1 promised)

theorem promisesModel_of_holdsModel
    {start : Session Peer} {calls : List SessionCall}
    (running : .close ∉ calls)
    (answered : ∀ exchange ∈ start.exchanges process limit calls,
      ¬ Unanswered exchange)
    (held : start.HoldsModel process limit calls) :
    promisesModel (start.exchanges process limit calls).reverse = true := by
  induction held with
  | found sat =>
      rw [List.mem_append, not_or] at running
      rw [exchanges_concat running.1 (by simp), List.reverse_concat]
      simp [promisesModel, perform, sat, SessionReply.ofResult]
  | unchecked held failed earlier =>
      rw [List.mem_append, not_or] at running
      rw [exchanges_concat running.1 (by simp), List.forall_mem_append]
        at answered
      simp [perform, failed, SessionReply.ofResult, Unanswered] at answered
  | @unintroduced calls term error held failed earlier =>
      rw [List.mem_append, not_or] at running
      rw [exchanges_concat running.1 (by simp), List.forall_mem_append]
        at answered
      have refused := assertTerm_of_error failed
      simp [perform, refused, SessionReply.ofResult, Unanswered] at answered
  | evaluated term held earlier =>
      rw [List.mem_append, not_or] at running
      rw [exchanges_concat running.1 (by simp), List.forall_mem_append]
        at answered
      rw [exchanges_concat running.1 (by simp), List.reverse_concat]
      exact earlier running.1 answered.1

/--
An evaluation is answered by a session that holds a model; any other replies
that there is none, and does not turn to its process.  A model that the
replies promise is held, and where no check and no assertion has failed, no
other is.
-/
theorem evaluation_needs_held_model
    (process : SolverProcess Peer) (settings : SolverSettings) (peer : Peer)
    (calls : List SessionCall) (running : .close ∉ calls) (term : Term) :
    let start := begun process settings peer
    let session := start.after process settings.checkLimit? calls
    let past := start.exchanges process settings.checkLimit? calls
    (¬ start.HoldsModel process settings.checkLimit? calls →
      session.evaluate process term = (.error .noModel, session)) ∧
    (start.HoldsModel process settings.checkLimit? calls →
      (session.evaluate process term).1 ≠ .error .noModel) ∧
    (promisesModel past.reverse = true →
      start.HoldsModel process settings.checkLimit? calls) ∧
    ((∀ exchange ∈ past, ¬ Unanswered exchange) →
      start.HoldsModel process settings.checkLimit? calls →
      promisesModel past.reverse = true) := by
  have unchecked := (sameBooks_begun process settings peer).lastCheck
  refine ⟨?_, ?_, holdsModel_of_promisesModel running,
    promisesModel_of_holdsModel running⟩
  · intro unheld
    rw [evaluate, if_neg (fun sat => unheld
      (holdsModel_of_lastCheck unchecked running sat))]
  · intro held
    exact evaluate_ne_noModel (lastCheck_of_holdsModel running held) process
      term

end Session

/-! ## A check that fails -/

/-- Finds a model, then reports an error, and goes on giving values. -/
def lapse : List String :=
  ["sat\n", "(error \"out of memory\")\n", "((true true))\n"]

/-- The session with it. -/
def lapsing : Session (Noted (List String)) :=
  .begun answering.noting .standard ⟨lapse, []⟩

/-- Asked for a value after a check that failed, it sends for one. -/
theorem value_given_after_failed_check :
    let limit := SolverSettings.standard.checkLimit?
    let past := lapsing.exchanges answering.noting limit [.checkSat, .checkSat]
    let asked := (lapsing.after answering.noting limit
      [.checkSat, .checkSat]).evaluate answering.noting (.bool true)
    past = [(.checkSat, .verdict .sat),
        (.checkSat, .failed (.protocol "out of memory"))] ∧
      promisesModel past.reverse = false ∧
      asked.1 = .ok (.bool true) ∧
      asked.2.peer.taken.getLast? = some "(get-value (true))" := by
  decide +kernel

/-- It holds the model of the first check, so the second is no hindrance. -/
theorem lapsing_evaluation_needs_held_model :
    .close ∉ [SessionCall.checkSat, .checkSat] ∧
      lapsing.HoldsModel answering.noting (some 10000)
        [.checkSat, .checkSat] ∧
      ((lapsing.after answering.noting (some 10000)
        [.checkSat, .checkSat]).evaluate answering.noting (.bool true)).1 ≠
          .error .noModel := by
  have running : .close ∉ [SessionCall.checkSat, .checkSat] := by decide
  have first : lapsing.HoldsModel answering.noting (some 10000)
      ([] ++ [.checkSat]) := .found (by decide +kernel)
  have failed : ((lapsing.after answering.noting (some 10000)
      ([] ++ [.checkSat])).checkSat answering.noting (some 10000)).1 =
        .error (.protocol "out of memory") := by decide +kernel
  have held : lapsing.HoldsModel answering.noting (some 10000)
      (([] ++ [.checkSat]) ++ [.checkSat]) := .unchecked first failed
  exact ⟨running, held,
    (Session.evaluation_needs_held_model answering.noting .standard ⟨lapse, []⟩
      [.checkSat, .checkSat] running (.bool true)).2.1 held⟩

end FlowWitness.Solver
