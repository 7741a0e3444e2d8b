import FlowWitness.Settings.Basic
import FlowWitness.Smt.SExprReader
import FlowWitness.Smt.ValueReader
import FlowWitness.Solver.Basic
import FlowWitness.Solver.Framing

/-!
# Sessions with a solver process

A session speaks SMT-LIB with one process, line by line.  It introduces every
declared symbol once, before its first use, and remembers the verdict of the
last check: values can be asked for only while that verdict is that there is
a model and nothing has been asserted since.

A check that stays unanswered beyond its limit stops the process and counts
as undecided.
-/

namespace FlowWitness.Solver

open FlowWitness.Settings
open FlowWitness.Smt
open FlowWitness.Text

/-! ## Processes -/

/-- What a process writes in answer to a command, and whether it ends there. -/
structure Reaction where
  output : List Glyph
  closes : Bool
  deriving DecidableEq, Repr

/--
A process with states of type `Peer`: what it does with a command, or why the
command cannot be written.  The pipe is broken if it does not listen any more.
-/
structure SolverProcess (Peer : Type) where
  accept : String → Peer → Except IoFault Reaction × Peer

/-! ## Sessions -/

/-- A session with a process. -/
structure Session (Peer : Type) where
  peer : Peer
  unread : List Glyph
  outputClosed : Bool
  stopped : Bool
  declared : List String
  lastCheck : Option Verdict
  deriving DecidableEq, Repr

namespace Session

variable {Peer : Type}

/-- A session with a process that has just been started. -/
def fresh (peer : Peer) : Session Peer :=
  ⟨peer, [], false, false, [], none⟩

/-- Take in what the process writes; after its end, there is nothing more. -/
def receive (session : Session Peer) (peer : Peer) (reaction : Reaction) :
    Session Peer :=
  if session.outputClosed then { session with peer := peer }
  else
    { session with
      peer := peer
      unread := session.unread ++ reaction.output
      outputClosed := reaction.closes }

/-- The error that a fault in writing a command amounts to. -/
def writeError : IoFault → SolverError
  | .brokenPipe => .processExited
  | fault => .io fault

/-- Send one command. -/
def send (process : SolverProcess Peer) (command : String)
    (session : Session Peer) : Except SolverError Unit × Session Peer :=
  if session.stopped then (.error .processExited, session)
  else
    match process.accept command session.peer with
    | (.ok reaction, peer) => (.ok (), session.receive peer reaction)
    | (.error fault, peer) =>
      (.error (writeError fault), { session with peer := peer })

/-- Introduce a symbol, unless one of its name has been introduced. -/
def declare (process : SolverProcess Peer) (symbol : FunctionSymbol)
    (session : Session Peer) : Except SolverError Unit × Session Peer :=
  if session.declared.contains symbol.text then (.ok (), session)
  else
    match symbol.declaration? with
    | none =>
      (.ok (), { session with declared := session.declared ++ [symbol.text] })
    | some declaration =>
      match session.send process declaration with
      | (.ok (), sent) =>
        (.ok (), { sent with declared := sent.declared ++ [symbol.text] })
      | (.error error, sent) => (.error error, sent)

/-- Introduce symbols in order. -/
def declareAll (process : SolverProcess Peer) :
    List FunctionSymbol → Session Peer → Except SolverError Unit × Session Peer
  | [], session => (.ok (), session)
  | symbol :: rest, session =>
    match session.declare process symbol with
    | (.ok (), declared) => declareAll process rest declared
    | (.error error, declared) => (.error error, declared)

/-- Assert a term; the last verdict no longer holds. -/
def assertTerm (process : SolverProcess Peer) (term : Term)
    (session : Session Peer) : Except SolverError Unit × Session Peer :=
  match declareAll process term.declarations session with
  | (.error error, declared) => (.error error, declared)
  | (.ok (), declared) =>
    { declared with lastCheck := none }.send process
      ("(assert " ++ term.text ++ ")")

/-- The error that a response to a command amounts to. -/
def responseError (command response : String) : SolverError :=
  match SExpr.read response with
  | .ok expression =>
    match expression.errorMessage? with
    | some message => .protocol message
    | none => .unexpectedResponse command response
  | .error _ => .unexpectedResponse command response

/-- A response without the blanks around it. -/
def responseText (characters : List Char) : String :=
  String.ofList (trimBlanks characters)

/--
Read one response, without the blanks around it.  Where the output has ended
there is none, and nothing stays unread.
-/
def readResponse (session : Session Peer) :
    Except SolverError String × Session Peer :=
  match frame session.outputClosed session.unread with
  | .response characters unread =>
    (.ok (responseText characters), { session with unread := unread })
  | .garbled unread =>
    (.error (.io .notText), { session with unread := unread })
  | .ended => (.error .processExited, { session with unread := [] })
  | .silent => (.error .unanswered, session)

/-- Stop the process and count the check as undecided. -/
def giveUp (session : Session Peer) : Session Peer :=
  { session with stopped := true, lastCheck := some .unknown }

/-- Take a verdict from a response. -/
def takeVerdict (session : Session Peer) (response : String) :
    Except SolverError Verdict × Session Peer :=
  match Verdict.ofText? response with
  | some verdict => (.ok verdict, { session with lastCheck := some verdict })
  | none => (.error (responseError "check-sat" response), session)

/-- Decide what has been asserted, within a limit if there is one. -/
def checkSat (process : SolverProcess Peer) (limit : Option Nat)
    (session : Session Peer) : Except SolverError Verdict × Session Peer :=
  match session.send process "(check-sat)" with
  | (.error error, sent) => (.error error, sent)
  | (.ok (), sent) =>
    match sent.readResponse, limit with
    | (.ok response, read), _ => read.takeVerdict response
    | (.error .unanswered, read), some _ => (.ok .unknown, read.giveUp)
    | (.error error, read), _ => (.error error, read)

/-- The value in a response of the form `((term value))`. -/
def valueIn? : SExpr → Option ModelValue
  | .list [.list [_, value]] => readValue value
  | _ => none

/-- Take a value from the response to a command. -/
def takeValue (command response : String) : Except SolverError ModelValue :=
  match SExpr.read response with
  | .error _ => .error (responseError command response)
  | .ok expression =>
    match valueIn? expression with
    | some value => .ok value
    | none => .error (responseError command response)

/-- Send a command and take a value from its response. -/
def query (process : SolverProcess Peer) (command : String)
    (session : Session Peer) : Except SolverError ModelValue × Session Peer :=
  match session.send process command with
  | (.error error, sent) => (.error error, sent)
  | (.ok (), sent) =>
    match sent.readResponse with
    | (.ok response, read) => (takeValue command response, read)
    | (.error error, read) => (.error error, read)

/-- The value of a term, if the last check found a model. -/
def evaluate (process : SolverProcess Peer) (term : Term)
    (session : Session Peer) : Except SolverError ModelValue × Session Peer :=
  if session.lastCheck = some .sat then
    match declareAll process term.declarations session with
    | (.error error, declared) => (.error error, declared)
    | (.ok (), declared) =>
      declared.query process ("(get-value (" ++ term.text ++ "))")
  else (.error .noModel, session)

/-- Say goodbye; a process that does not listen any more is closed already. -/
def close (process : SolverProcess Peer) (session : Session Peer) :
    Session Peer :=
  (session.send process "(exit)").2

/-- Begin a session: ask for models, and choose the logic, if there is one. -/
def greet (process : SolverProcess Peer) (settings : SolverSettings)
    (session : Session Peer) : Except SolverError Unit × Session Peer :=
  match session.send process "(set-option :produce-models true)" with
  | (.error error, sent) => (.error error, sent)
  | (.ok (), sent) =>
    match settings.logic with
    | none => (.ok (), sent)
    | some logic => sent.send process ("(set-logic " ++ logic ++ ")")

end Session

/-! ## Calls -/

/-- A call to a session. -/
inductive SessionCall where
  | assertTerm (term : Term)
  | checkSat
  | evaluate (term : Term)
  | close
  deriving DecidableEq, Repr

/-- What a session answers to a call. -/
inductive SessionReply where
  | done
  | verdict (verdict : Verdict)
  | value (value : ModelValue)
  | failed (error : SolverError)
  deriving DecidableEq, Repr

/-- The reply to a call: what its result is made into, or its error. -/
def SessionReply.ofResult {Result : Type} (wrap : Result → SessionReply) :
    Except SolverError Result → SessionReply
  | .ok result => wrap result
  | .error error => .failed error

namespace Session

variable {Peer : Type}

/-- Answer one call, with a limit on checks if there is one. -/
def perform (process : SolverProcess Peer) (limit : Option Nat)
    (session : Session Peer) : SessionCall → SessionReply × Session Peer
  | .assertTerm term =>
    let (result, after) := session.assertTerm process term
    (.ofResult (fun _ => .done) result, after)
  | .checkSat =>
    let (result, after) := session.checkSat process limit
    (.ofResult .verdict result, after)
  | .evaluate term =>
    let (result, after) := session.evaluate process term
    (.ofResult .value result, after)
  | .close => (.done, session.close process)

/-- Answer calls in order; closing ends the session. -/
def performAll (process : SolverProcess Peer) (limit : Option Nat) :
    List SessionCall → Session Peer → List SessionReply × Session Peer
  | [], session => ([], session)
  | .close :: _, session =>
    let (reply, after) := session.perform process limit .close
    ([reply], after)
  | call :: rest, session =>
    let (reply, after) := session.perform process limit call
    let (replies, final) := performAll process limit rest after
    (reply :: replies, final)

end Session

/-! ## Process solvers -/

/-- Where processes come from. -/
structure Host (Site Peer : Type) where
  launch : SolverSettings → Site → Except SolverError Peer × Site

/-- The site of the processes, and all sessions so far with the latest first. -/
structure ProcessState (Site Peer : Type) where
  site : Site
  sessions : List (Session Peer)
  deriving DecidableEq, Repr

namespace ProcessState

variable {Site Peer Result : Type}

/-- No session yet. -/
def start (site : Site) : ProcessState Site Peer := ⟨site, []⟩

/-- Start a process and begin a session with it. -/
def openSession (host : Host Site Peer) (process : SolverProcess Peer)
    (settings : SolverSettings) (state : ProcessState Site Peer) :
    Except SolverError Unit × ProcessState Site Peer :=
  match host.launch settings state.site with
  | (.error error, site) => (.error error, { state with site := site })
  | (.ok peer, site) =>
    let (answer, session) := (Session.fresh peer).greet process settings
    (answer, ⟨site, session :: state.sessions⟩)

/-- Act on the latest session. -/
def onLatest
    (act : Session Peer → Except SolverError Result × Session Peer)
    (state : ProcessState Site Peer) :
    Except SolverError Result × ProcessState Site Peer :=
  match state.sessions with
  | [] => (.error .processExited, state)
  | session :: rest =>
    let (answer, after) := act session
    (answer, { state with sessions := after :: rest })

end ProcessState

/-- The solver that starts one process for every session. -/
def processSolver {Site Peer : Type} (host : Host Site Peer)
    (process : SolverProcess Peer) (settings : SolverSettings) :
    Backend (ProcessState Site Peer) where
  openSession := ProcessState.openSession host process settings
  assertTerm term := ProcessState.onLatest (Session.assertTerm process term)
  checkSat :=
    ProcessState.onLatest (Session.checkSat process settings.checkLimit?)
  evaluate term := ProcessState.onLatest (Session.evaluate process term)
  closeSession := ProcessState.onLatest (fun session =>
    (.ok (), session.close process))

end FlowWitness.Solver
