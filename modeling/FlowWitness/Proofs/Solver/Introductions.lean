import FlowWitness.Proofs.Smt.SymbolText
import FlowWitness.Proofs.Solver.SessionSteps

/-!
# Symbols are introduced once, before use

A session introduces a declared symbol when it first has to send a term that
mentions it, and keeps the words that it has introduced.  Words tell names
apart, so as long as a name has one signature the words that are kept stand
for symbols, one each.

What a session sends is a matter of the calls in order: the introductions of
one call come right before its own command, and are those of symbols in its
term.  So every symbol of a command has been introduced once, and no symbol is
introduced in vain.
-/

namespace FlowWitness.Solver

open FlowWitness.Settings
open FlowWitness.Smt

/-! ## Lines that introduce a symbol -/

/-- What every line that introduces a symbol begins with. -/
def introductionMark : String := "(declare-fun "

/-- Does the line introduce a symbol? -/
def isIntroduction (line : String) : Bool :=
  introductionMark.toList.isPrefixOf line.toList

/-- Does the line introduce the symbol that is written as this word? -/
def introduces (word line : String) : Bool :=
  (introductionMark ++ word ++ " ").toList.isPrefixOf line.toList

theorem isIntroduction_of_introduces
    {word line : String} (introduced : introduces word line = true) :
    isIntroduction line = true := by
  simp only [introduces, isIntroduction, List.isPrefixOf_iff_prefix,
    String.toList_append, List.append_assoc] at introduced ⊢
  exact (List.prefix_append _ _).trans introduced

/-- A symbol with such a line is declared, and stands first in it. -/
theorem declaration?_eq_some
    {symbol : FunctionSymbol} {line : String}
    (declaration : symbol.declaration? = some line) :
    symbol.isBuiltin = false ∧ ∃ behind, line.toList =
      introductionMark.toList ++ (symbol.text.toList ++ ' ' :: behind) := by
  rw [FunctionSymbol.declaration?] at declaration
  split at declaration
  · simp at declaration
  · next declared =>
      simp only [Option.some.injEq] at declaration
      subst line
      refine ⟨by simpa using declared, ("(" ++ String.intercalate " "
        (symbol.argumentSorts.map SmtSort.text) ++ ") " ++
        symbol.result.text ++ ")").toList, ?_⟩
      simp [introductionMark]

theorem exists_declaration
    {symbol : FunctionSymbol} (declared : symbol.isBuiltin = false) :
    ∃ line, symbol.declaration? = some line := by
  rw [FunctionSymbol.declaration?, declared, if_neg Bool.false_ne_true]
  exact ⟨_, rfl⟩

theorem isIntroduction_of_declaration
    {symbol : FunctionSymbol} {line : String}
    (declaration : symbol.declaration? = some line) :
    isIntroduction line = true := by
  rcases declaration?_eq_some declaration with ⟨_, behind, shape⟩
  rw [isIntroduction, shape, List.isPrefixOf_iff_prefix]
  exact List.prefix_append _ _

/-- The line that introduces a symbol introduces no other name. -/
theorem name_eq_of_introduces
    {symbol other : FunctionSymbol} (declared : symbol.isBuiltin = false)
    {line : String} (declaration : other.declaration? = some line)
    (introduced : introduces symbol.text line = true) :
    symbol.name = other.name := by
  rcases declaration?_eq_some declaration with ⟨otherDeclared, behind, shape⟩
  rw [introduces, shape, List.isPrefixOf_iff_prefix, String.toList_append,
    String.toList_append, List.append_assoc, List.prefix_append_right_inj]
    at introduced
  rcases introduced with ⟨rest, same⟩
  rw [List.append_assoc] at same
  exact FunctionSymbol.name_eq_of_append_eq declared otherDeclared same

theorem introduces_declaration
    {symbol : FunctionSymbol} {line : String}
    (declaration : symbol.declaration? = some line) :
    introduces symbol.text line = true := by
  rcases declaration?_eq_some declaration with ⟨_, behind, shape⟩
  rw [introduces, shape, List.isPrefixOf_iff_prefix, String.toList_append,
    String.toList_append, List.append_assoc, List.prefix_append_right_inj]
  exact ⟨behind, List.append_assoc ..⟩

/-- Declared symbols that are written alike have one name. -/
theorem name_eq_of_text_eq
    {symbol other : FunctionSymbol} (declared : symbol.isBuiltin = false)
    (otherDeclared : other.isBuiltin = false)
    (same : symbol.text = other.text) :
    symbol.name = other.name := by
  have alike : symbol.text.toList ++ [' '] = other.text.toList ++ [' '] := by
    rw [same]
  exact FunctionSymbol.name_eq_of_append_eq declared otherDeclared alike

theorem text_eq_of_name_eq
    {symbol other : FunctionSymbol} (declared : symbol.isBuiltin = false)
    (otherDeclared : other.isBuiltin = false)
    (same : symbol.name = other.name) :
    symbol.text = other.text := by
  rw [FunctionSymbol.text, FunctionSymbol.text, declared, otherDeclared, same]

/-! ## Calls -/

namespace SessionCall

/-- The term that a call is about. -/
def term? : SessionCall → Option Term
  | .assertTerm term => some term
  | .evaluate term => some term
  | .checkSat => none
  | .close => none

/-- The call is about a term that mentions this declared symbol. -/
def Uses (call : SessionCall) (symbol : FunctionSymbol) : Prop :=
  symbol.isBuiltin = false ∧
    ∃ term, call.term? = some term ∧ term.Mentions symbol

/-- The command that a call comes down to. -/
def command : SessionCall → String
  | .assertTerm term => "(assert " ++ term.text ++ ")"
  | .checkSat => "(check-sat)"
  | .evaluate term => "(get-value (" ++ term.text ++ "))"
  | .close => "(exit)"

/-- The declared symbols of a call, collected from its term. -/
def symbols (call : SessionCall) : List FunctionSymbol :=
  match call.term? with
  | some term => term.declarations
  | none => []

@[simp]
theorem symbols_checkSat : checkSat.symbols = [] := rfl

@[simp]
theorem symbols_close : close.symbols = [] := rfl

theorem mem_symbols {call : SessionCall} {symbol : FunctionSymbol} :
    symbol ∈ call.symbols ↔ call.Uses symbol := by
  rw [symbols, Uses]
  cases call.term? with
  | none => simp
  | some term => simp [Term.mem_declarations]

theorem not_isIntroduction_command (call : SessionCall) :
    isIntroduction call.command = false := by
  cases call with
  | assertTerm term | evaluate term =>
      simp [isIntroduction, introductionMark, command, List.isPrefixOf]
  | checkSat | close => decide

theorem not_introduces_command (word : String) (call : SessionCall) :
    introduces word call.command = false := by
  rw [Bool.eq_false_iff]
  intro introducing
  have marked := isIntroduction_of_introduces introducing
  rw [call.not_isIntroduction_command] at marked
  exact Bool.false_ne_true marked

end SessionCall

/-- The process takes every command. -/
def SolverProcess.Listens {Peer : Type} (process : SolverProcess Peer) : Prop :=
  ∀ command peer, ∃ reaction after,
    process.accept command peer = (.ok reaction, after)

namespace Session

variable {Peer : Type} {process : SolverProcess Peer}

/-! ## Sending -/

theorem send_of_stopped
    {session : Session Peer} (stopped : session.stopped = true)
    (command : String) :
    session.send process command = (.error .processExited, session) := by
  rw [send, if_pos stopped]

/-- A process that listens takes the command, and notes it. -/
theorem send_of_listens
    (listens : process.Listens) {session : Session (Noted Peer)}
    (running : session.stopped = false) (command : String) :
    ∃ sent, session.send process.noting command = (.ok (), sent) ∧
      SameBooks session sent ∧
      sent.peer.taken = session.peer.taken ++ [command] := by
  have books := sameBooks_send process.noting command session
  rcases listens command session.peer.peer with ⟨reaction, after, accepted⟩
  have noted : process.noting.accept command session.peer =
      (.ok reaction, ⟨after, session.peer.taken ++ [command]⟩) := by
    simp only [SolverProcess.noting, accepted]
  rw [send, running, if_neg Bool.false_ne_true, noted] at books ⊢
  refine ⟨_, rfl, books, ?_⟩
  rw [receive]
  split
  · rfl
  · rfl

/-! ## What has been introduced -/

/--
The session has introduced these symbols, and the process has taken a line for
each of them, in this order, and no other such line.
-/
structure Introduced (session : Session (Noted Peer))
    (known : List FunctionSymbol) : Prop where
  declared : session.declared = known.map FunctionSymbol.text
  once : (known.map FunctionSymbol.text).Nodup
  own : ∀ symbol ∈ known, symbol.isBuiltin = false
  noted : session.peer.taken.filter isIntroduction =
    known.filterMap FunctionSymbol.declaration?

theorem Introduced.congr
    {before after : Session (Noted Peer)} {known : List FunctionSymbol}
    (introduced : before.Introduced known)
    (declared : after.declared = before.declared)
    (peer : after.peer = before.peer) :
    after.Introduced known where
  declared := declared.trans introduced.declared
  once := introduced.once
  own := introduced.own
  noted := peer ▸ introduced.noted

/-- Another command makes no difference. -/
theorem Introduced.other
    {before after : Session (Noted Peer)} {known : List FunctionSymbol}
    (introduced : before.Introduced known)
    (declared : after.declared = before.declared) {call : SessionCall}
    (taken : after.peer.taken = before.peer.taken ++ [call.command]) :
    after.Introduced known where
  declared := declared.trans introduced.declared
  once := introduced.once
  own := introduced.own
  noted := by
    rw [taken, List.filter_append, introduced.noted]
    simp [call.not_isIntroduction_command]

/-- What introducing some symbols adds to what is known. -/
structure Adds (known symbols new : List FunctionSymbol)
    (before after : Session (Noted Peer)) : Prop where
  introduced : after.Introduced (known ++ new)
  stopped : after.stopped = before.stopped
  taken : after.peer.taken =
    before.peer.taken ++ new.filterMap FunctionSymbol.declaration?
  among : ∀ symbol ∈ new, symbol ∈ symbols
  covers : ∀ symbol ∈ symbols,
    symbol.text ∈ (known ++ new).map FunctionSymbol.text

/-- Symbols whose words are known are passed over. -/
theorem Introduced.adds_nothing
    {session : Session (Noted Peer)} {known symbols : List FunctionSymbol}
    (introduced : session.Introduced known)
    (old : ∀ symbol ∈ symbols, symbol.text ∈ session.declared) :
    Adds known symbols [] session session where
  introduced := by rwa [List.append_nil]
  stopped := rfl
  taken := by simp
  among := by simp
  covers := by
    rw [List.append_nil, ← introduced.declared]
    exact old

/-- A symbol whose word is new joins those that are known. -/
theorem Introduced.adds_symbol
    {session sent : Session (Noted Peer)} {known : List FunctionSymbol}
    (introduced : session.Introduced known) {symbol : FunctionSymbol}
    (own : symbol.isBuiltin = false) (new : symbol.text ∉ session.declared)
    {line : String} (declaration : symbol.declaration? = some line)
    (books : SameBooks session sent)
    (taken : sent.peer.taken = session.peer.taken ++ [line]) :
    Adds known [symbol] [symbol] session
      { sent with declared := sent.declared ++ [symbol.text] } where
  introduced := by
    constructor
    case declared =>
      simp only [books.declared, introduced.declared, List.map_append,
        List.map_singleton]
    case once =>
      rw [List.map_append, List.map_singleton]
      rw [introduced.declared] at new
      refine List.nodup_append.mpr ⟨introduced.once, by simp, ?_⟩
      intro word member other single
      rw [List.mem_singleton.mp single]
      rintro rfl
      exact new member
    case own =>
      rw [List.forall_mem_append, List.forall_mem_singleton]
      exact ⟨introduced.own, own⟩
    case noted =>
      simp only [taken, List.filter_append, introduced.noted,
        List.filterMap_append]
      simp [isIntroduction_of_declaration declaration, declaration]
  stopped := books.stopped
  taken := by simp [taken, declaration]
  among := by simp
  covers := by simp

theorem Introduced.declare
    (listens : process.Listens) {session : Session (Noted Peer)}
    {known : List FunctionSymbol} (introduced : session.Introduced known)
    (running : session.stopped = false)
    {symbol : FunctionSymbol} (own : symbol.isBuiltin = false) :
    ∃ new after, session.declare process.noting symbol = (.ok (), after) ∧
      Adds known [symbol] new session after := by
  rw [Session.declare]
  split
  · next old =>
      exact ⟨[], session, rfl, introduced.adds_nothing (by simpa using old)⟩
  · next new =>
      rcases exists_declaration own with ⟨line, declaration⟩
      rcases send_of_listens listens running line with
        ⟨sent, said, books, taken⟩
      rw [declaration]
      simp only [said]
      exact ⟨[symbol], _, rfl, introduced.adds_symbol own (by simpa using new)
        declaration books taken⟩

theorem Adds.trans
    {known first second early late : List FunctionSymbol}
    {before middle after : Session (Noted Peer)}
    (begins : Adds known first early before middle)
    (continues : Adds (known ++ early) second late middle after) :
    Adds known (first ++ second) (early ++ late) before after where
  introduced := by
    rw [← List.append_assoc]
    exact continues.introduced
  stopped := continues.stopped.trans begins.stopped
  taken := by
    rw [continues.taken, begins.taken, List.filterMap_append,
      List.append_assoc]
  among := by
    intro symbol member
    rcases List.mem_append.mp member with inEarly | inLate
    · exact List.mem_append_left _ (begins.among symbol inEarly)
    · exact List.mem_append_right _ (continues.among symbol inLate)
  covers := by
    intro symbol member
    rw [← List.append_assoc]
    rcases List.mem_append.mp member with inFirst | inSecond
    · rw [List.map_append]
      exact List.mem_append_left _ (begins.covers symbol inFirst)
    · exact continues.covers symbol inSecond

theorem Introduced.declareAll
    (listens : process.Listens) {symbols : List FunctionSymbol}
    (own : ∀ symbol ∈ symbols, symbol.isBuiltin = false)
    {session : Session (Noted Peer)} {known : List FunctionSymbol}
    (introduced : session.Introduced known)
    (running : session.stopped = false) :
    ∃ new after,
      Session.declareAll process.noting symbols session = (.ok (), after) ∧
      Adds known symbols new session after := by
  induction symbols generalizing session known with
  | nil => exact ⟨[], session, rfl, introduced.adds_nothing (by simp)⟩
  | cons symbol rest induction =>
      rw [List.forall_mem_cons] at own
      rcases introduced.declare listens running own.1 with
        ⟨early, middle, here, first⟩
      rcases induction own.2 first.introduced
          (first.stopped.trans running) with ⟨late, after, onward, others⟩
      refine ⟨early ++ late, after, ?_, first.trans others⟩
      rw [Session.declareAll, here]
      exact onward

/-- A session that has stopped its process introduces nothing more. -/
theorem declare_of_stopped
    {session : Session Peer} (stopped : session.stopped = true)
    {symbol : FunctionSymbol} (own : symbol.isBuiltin = false) :
    (session.declare process symbol).2 = session := by
  rcases exists_declaration own with ⟨line, declaration⟩
  rw [declare]
  split
  · rfl
  · rw [declaration]
    simp only [send_of_stopped stopped]

theorem declareAll_of_stopped
    {symbols : List FunctionSymbol}
    (own : ∀ symbol ∈ symbols, symbol.isBuiltin = false)
    {session : Session Peer} (stopped : session.stopped = true) :
    (declareAll process symbols session).2 = session := by
  induction symbols with
  | nil => rfl
  | cons symbol rest induction =>
      rw [List.forall_mem_cons] at own
      have kept : (session.declare process symbol).2 = session :=
        declare_of_stopped stopped own.1
      rw [declareAll]
      generalize session.declare process symbol = step at kept ⊢
      rcases step with ⟨result, declared⟩
      subst kept
      cases result with
      | error error => rfl
      | ok _ => exact induction own.2

/-! ## Calls -/

/-- Does the session turn to its process for this call? -/
def speaks (session : Session Peer) : SessionCall → Bool
  | .evaluate _ => !session.stopped && session.lastCheck = some .sat
  | _ => !session.stopped

/-- A call that is not passed on changes nothing that has been introduced. -/
theorem perform_of_silent
    {limit : Option Nat} {session : Session Peer} {call : SessionCall}
    (silent : session.speaks call = false) :
    (session.perform process limit call).2.declared = session.declared ∧
      (session.perform process limit call).2.peer = session.peer := by
  have unsent : session.stopped = true → ∀ command,
      session.send process command = (.error .processExited, session) :=
    fun stopped => send_of_stopped stopped
  have unintroduced : session.stopped = true → ∀ term : Term,
      (declareAll process term.declarations session).2 = session :=
    fun stopped _ => declareAll_of_stopped
      (fun _ => Term.isBuiltin_of_mem_declarations) stopped
  cases call with
  | assertTerm term =>
      have stopped : session.stopped = true := by simpa [speaks] using silent
      have kept := unintroduced stopped term
      simp only [perform, assertTerm]
      generalize declareAll process term.declarations session = step at kept ⊢
      rcases step with ⟨result, declared⟩
      subst kept
      cases result with
      | error error => exact ⟨rfl, rfl⟩
      | ok _ =>
          have ended : ({ declared with lastCheck := none } :
              Session Peer).stopped = true := stopped
          simp only [send_of_stopped ended, and_self]
  | checkSat =>
      have stopped : session.stopped = true := by simpa [speaks] using silent
      simp only [perform, checkSat, unsent stopped, and_self]
  | evaluate term =>
      simp only [perform, evaluate]
      split
      · next sat =>
          have stopped : session.stopped = true := by
            simpa [speaks, sat] using silent
          have kept := unintroduced stopped term
          generalize declareAll process term.declarations session = step
            at kept ⊢
          rcases step with ⟨result, declared⟩
          subst kept
          cases result with
          | error error => exact ⟨rfl, rfl⟩
          | ok _ => simp only [query, unsent stopped, and_self]
      · exact ⟨rfl, rfl⟩
  | close =>
      have stopped : session.stopped = true := by simpa [speaks] using silent
      simp only [perform, close, unsent stopped, and_self]

/--
What a call adds that is passed on: introductions of symbols that it uses, and
then its own command.
-/
structure Spoken (call : SessionCall) (known new : List FunctionSymbol)
    (before after : Session (Noted Peer)) : Prop where
  introduced : after.Introduced (known ++ new)
  taken : after.peer.taken = before.peer.taken ++
    new.filterMap FunctionSymbol.declaration? ++ [call.command]
  among : ∀ symbol ∈ new, call.Uses symbol
  covers : ∀ symbol, call.Uses symbol →
    symbol.text ∈ (known ++ new).map FunctionSymbol.text

/-- Once its symbols are introduced, a call is left with its own command. -/
theorem Adds.spoken
    {call : SessionCall} {known new : List FunctionSymbol}
    {before middle after : Session (Noted Peer)}
    (added : Adds known call.symbols new before middle)
    (declared : after.declared = middle.declared)
    (taken : after.peer.taken = middle.peer.taken ++ [call.command]) :
    Spoken call known new before after where
  introduced := added.introduced.other declared taken
  taken := by rw [taken, added.taken]
  among := fun symbol member =>
    SessionCall.mem_symbols.mp (added.among symbol member)
  covers := fun symbol used =>
    added.covers symbol (SessionCall.mem_symbols.mpr used)

theorem perform_of_speaks
    (listens : process.Listens) (limit : Option Nat)
    {session : Session (Noted Peer)} {known : List FunctionSymbol}
    (introduced : session.Introduced known) {call : SessionCall}
    (speaking : session.speaks call = true) :
    ∃ new, Spoken call known new session
      (session.perform process.noting limit call).2 := by
  have running : session.stopped = false := by
    cases call with
    | evaluate term =>
        rw [speaks, Bool.and_eq_true] at speaking
        simpa using speaking.1
    | _ => simpa [speaks] using speaking
  cases call with
  | assertTerm term =>
      rcases introduced.declareAll listens
          (fun _ => Term.isBuiltin_of_mem_declarations) running with
        ⟨new, middle, done, added⟩
      have onward : ({ middle with lastCheck := none } :
          Session (Noted Peer)).stopped = false := added.stopped.trans running
      rcases send_of_listens listens onward
          ("(assert " ++ term.text ++ ")") with ⟨sent, said, books, taken⟩
      refine ⟨new, added.spoken ?_ ?_⟩
      all_goals simp only [perform, assertTerm, done, said]
      · exact books.declared
      · exact taken
  | checkSat =>
      rcases send_of_listens listens running "(check-sat)" with
        ⟨sent, said, books, taken⟩
      have step := checkSat_after_send process.noting limit session
      rw [said] at step
      refine ⟨[], (introduced.adds_nothing (by simp)).spoken ?_ ?_⟩
      · exact step.1.trans books.declared
      · exact (congrArg Noted.taken step.2).trans taken
  | evaluate term =>
      have sat : session.lastCheck = some .sat := by
        rw [speaks, Bool.and_eq_true, decide_eq_true_eq] at speaking
        exact speaking.2
      rcases introduced.declareAll listens
          (fun _ => Term.isBuiltin_of_mem_declarations) running with
        ⟨new, middle, done, added⟩
      rcases send_of_listens listens (added.stopped.trans running)
          ("(get-value (" ++ term.text ++ "))") with
        ⟨sent, said, books, taken⟩
      have step := query_after_send process.noting
        ("(get-value (" ++ term.text ++ "))") middle
      rw [said] at step
      refine ⟨new, added.spoken ?_ ?_⟩
      all_goals simp only [perform, evaluate, if_pos sat, done]
      · exact step.1.declared.trans books.declared
      · exact (congrArg Noted.taken step.2).trans taken
  | close =>
      rcases send_of_listens listens running "(exit)" with
        ⟨sent, said, books, taken⟩
      refine ⟨[], (introduced.adds_nothing (by simp)).spoken ?_ ?_⟩
      all_goals simp only [perform, close, said]
      · exact books.declared
      · exact taken

/-- One call adds introductions of symbols that it uses, if any. -/
theorem Introduced.perform
    (listens : process.Listens) (limit : Option Nat)
    {session : Session (Noted Peer)} {known : List FunctionSymbol}
    (introduced : session.Introduced known) (call : SessionCall) :
    ∃ new, (session.perform process.noting limit call).2.Introduced
        (known ++ new) ∧
      ∀ symbol ∈ new, call.Uses symbol := by
  cases speaking : session.speaks call with
  | true =>
      rcases perform_of_speaks listens limit introduced speaking with
        ⟨new, spoken⟩
      exact ⟨new, spoken.introduced, spoken.among⟩
  | false =>
      rcases perform_of_silent speaking with ⟨declared, peer⟩
      refine ⟨[], ?_, by simp⟩
      rw [List.append_nil]
      exact introduced.congr declared peer

/-- So does a run of calls. -/
theorem Introduced.after
    (listens : process.Listens) (limit : Option Nat)
    {calls : List SessionCall} (running : .close ∉ calls)
    {session : Session (Noted Peer)} {known : List FunctionSymbol}
    (introduced : session.Introduced known) :
    ∃ new, (session.after process.noting limit calls).Introduced
        (known ++ new) ∧
      ∀ symbol ∈ new, ∃ call ∈ calls, call.Uses symbol := by
  induction calls generalizing session known with
  | nil => exact ⟨[], by rwa [List.append_nil], by simp⟩
  | cons call rest induction =>
      rw [List.mem_cons, not_or] at running
      rcases introduced.perform listens limit call with ⟨early, here, used⟩
      rcases induction running.2 here with ⟨late, onward, others⟩
      refine ⟨early ++ late, ?_, ?_⟩
      · rw [after_cons (fun same => running.1 same.symm), ← List.append_assoc]
        exact onward
      · intro symbol member
        rcases List.mem_append.mp member with inEarly | inLate
        · exact ⟨call, List.mem_cons_self, used symbol inEarly⟩
        · rcases others symbol inLate with ⟨other, among, uses⟩
          exact ⟨other, List.mem_cons_of_mem _ among, uses⟩

/-! ## The introduction of a symbol -/

/-- Exactly one line that was taken introduces a symbol that is known. -/
theorem Introduced.exactly_one
    {session : Session (Noted Peer)} {known : List FunctionSymbol}
    (introduced : session.Introduced known) {symbol : FunctionSymbol}
    (member : symbol ∈ known) :
    ∃ line, symbol.declaration? = some line ∧
      session.peer.taken.filter (introduces symbol.text) = [line] := by
  have declared := introduced.own symbol member
  rcases exists_declaration declared with ⟨line, declaration⟩
  refine ⟨line, declaration, ?_⟩
  rcases List.mem_iff_append.mp member with ⟨early, late, rfl⟩
  have passed : ∀ others : List FunctionSymbol,
      (∀ other ∈ others, other.isBuiltin = false) →
      symbol.text ∉ others.map FunctionSymbol.text →
      (others.filterMap FunctionSymbol.declaration?).filter
        (introduces symbol.text) = [] := by
    intro others own new
    rw [List.filter_eq_nil_iff]
    intro other taken introducing
    rcases List.mem_filterMap.mp taken with ⟨source, among, declares⟩
    have names := name_eq_of_introduces declared declares introducing
    refine new (List.mem_map.mpr ⟨source, among, ?_⟩)
    exact (text_eq_of_name_eq declared (own source among) names).symm
  have own := introduced.own
  have once := introduced.once
  rw [List.forall_mem_append, List.forall_mem_cons] at own
  rw [List.map_append, List.map_cons, List.nodup_append, List.nodup_cons]
    at once
  have unseen : symbol.text ∉ early.map FunctionSymbol.text :=
    fun seen => once.2.2 _ seen _ List.mem_cons_self rfl
  calc
    _ = (session.peer.taken.filter isIntroduction).filter
          (introduces symbol.text) := by
        rw [List.filter_filter]
        refine List.filter_congr fun other _ => ?_
        cases introducing : introduces symbol.text other with
        | true => rw [isIntroduction_of_introduces introducing, Bool.and_true]
        | false => rw [Bool.false_and]
    _ = [line] := by
        rw [introduced.noted, List.filterMap_append, List.filter_append,
          passed early own.1 unseen, List.filterMap_cons, declaration,
          List.filter_cons_of_pos (introduces_declaration declaration),
          passed late own.2.2 once.2.1.1, List.nil_append]

/-! ## Beginnings -/

/-- What a session sends before any call. -/
def greeting (settings : SolverSettings) : List String :=
  "(set-option :produce-models true)" ::
    (settings.logic.map fun logic => "(set-logic " ++ logic ++ ")").toList

theorem taken_begun
    (listens : process.Listens) (settings : SolverSettings) (peer : Peer) :
    (begun process.noting settings ⟨peer, []⟩).peer.taken =
      greeting settings := by
  have running : (fresh (⟨peer, []⟩ : Noted Peer)).stopped = false := rfl
  rcases send_of_listens listens running "(set-option :produce-models true)"
    with ⟨sent, said, books, taken⟩
  rw [begun, greet, said]
  cases chosen : settings.logic with
  | none =>
      simp only [taken, greeting, chosen]
      rfl
  | some logic =>
      rcases send_of_listens listens (books.stopped.trans running)
          ("(set-logic " ++ logic ++ ")") with ⟨told, chose, _, both⟩
      simp only [chose, both, taken, greeting, chosen]
      rfl

theorem introduced_begun
    (listens : process.Listens) (settings : SolverSettings) (peer : Peer) :
    (begun process.noting settings ⟨peer, []⟩).Introduced [] where
  declared := (sameBooks_begun process.noting settings ⟨peer, []⟩).declared
  once := List.nodup_nil
  own := by simp
  noted := by
    rw [taken_begun listens, List.filterMap_nil, List.filter_eq_nil_iff, greeting]
    cases settings.logic with
    | none => simp [isIntroduction, introductionMark]
    | some logic => simp [isIntroduction, introductionMark]

end Session

/-! ## Everything that is sent -/

/-- What a session sends from its beginning until these calls are answered. -/
def sentIn {Peer : Type} (process : SolverProcess Peer)
    (settings : SolverSettings) (peer : Peer) (calls : List SessionCall) :
    List String :=
  ((Session.begun process.noting settings ⟨peer, []⟩).after process.noting
    settings.checkLimit? calls).peer.taken

/-- No name is used with two signatures. -/
def SingleSignatures (calls : List SessionCall) : Prop :=
  ∀ first ∈ calls, ∀ second ∈ calls,
    ∀ symbol, first.Uses symbol → ∀ other, second.Uses other →
      symbol.name = other.name → symbol = other

instance (calls : List SessionCall) : Decidable (SingleSignatures calls) :=
  decidable_of_iff
    (∀ first ∈ calls, ∀ second ∈ calls,
      ∀ symbol ∈ first.symbols, ∀ other ∈ second.symbols,
        symbol.name = other.name → symbol = other)
    (by simp only [SingleSignatures, SessionCall.mem_symbols])

/-- Among symbols that are used, the word of a symbol stands for it alone. -/
theorem SingleSignatures.mem_of_text_mem
    {calls : List SessionCall} (single : SingleSignatures calls)
    {known : List FunctionSymbol}
    (used : ∀ symbol ∈ known, ∃ call ∈ calls, call.Uses symbol)
    {call : SessionCall} (called : call ∈ calls) {symbol : FunctionSymbol}
    (uses : call.Uses symbol)
    (word : symbol.text ∈ known.map FunctionSymbol.text) :
    symbol ∈ known := by
  rcases List.mem_map.mp word with ⟨other, member, same⟩
  rcases used other member with ⟨user, calledToo, usesOther⟩
  have names : other.name = symbol.name :=
    name_eq_of_text_eq usesOther.1 uses.1 same
  rwa [← single user calledToo call called other usesOther symbol uses names]

/--
A session that a process listens to says its greeting, and then, for each call
that is passed on, introductions of symbols that the call uses, followed by the
command of the call.  Every symbol that the call uses has exactly one
introduction by then, with the sorts that it has, and gets no other one later.
-/
theorem symbols_introduced_once_before_use
    {Peer : Type} (process : SolverProcess Peer) (settings : SolverSettings)
    (peer : Peer) (calls : List SessionCall)
    (listens : process.Listens) (running : .close ∉ calls)
    (single : SingleSignatures calls) :
    sentIn process settings peer [] = Session.greeting settings ∧
    ∀ before call after, calls = before ++ call :: after →
      let session := (Session.begun process.noting settings ⟨peer, []⟩).after
        process.noting settings.checkLimit? before
      (session.speaks call = false →
        sentIn process settings peer (before ++ [call]) =
          sentIn process settings peer before) ∧
      (session.speaks call = true →
        ∃ introductions,
          sentIn process settings peer (before ++ [call]) =
            sentIn process settings peer before ++ introductions ++
              [call.command] ∧
          (∀ line ∈ introductions, ∃ symbol,
            call.Uses symbol ∧ symbol.declaration? = some line) ∧
          ∀ symbol, call.Uses symbol →
            ∃ line, symbol.declaration? = some line ∧
              (sentIn process settings peer before ++ introductions).filter
                (introduces symbol.text) = [line] ∧
              (sentIn process settings peer calls).filter
                (introduces symbol.text) = [line]) := by
  refine ⟨Session.taken_begun listens settings peer, ?_⟩
  rintro before call after rfl
  simp only [List.mem_append, List.mem_cons, not_or] at running
  have onward : call ≠ .close := fun same => running.2.1 same.symm
  intro session
  have reached : (Session.begun process.noting settings ⟨peer, []⟩).after
      process.noting settings.checkLimit? (before ++ [call]) =
      (session.perform process.noting settings.checkLimit? call).2 :=
    Session.after_concat running.1 onward _
  constructor
  · intro silent
    rw [sentIn, reached, (Session.perform_of_silent silent).2]
    rfl
  · intro speaking
    rcases (Session.introduced_begun listens settings peer).after listens
        settings.checkLimit? running.1 with ⟨known, introduced, used⟩
    rw [List.nil_append] at introduced
    rcases Session.perform_of_speaks listens settings.checkLimit? introduced
        speaking with ⟨new, spoken⟩
    refine ⟨new.filterMap FunctionSymbol.declaration?, ?_, ?_, ?_⟩
    · rw [sentIn, reached]
      exact spoken.taken
    · intro line member
      rcases List.mem_filterMap.mp member with ⟨symbol, among, declaration⟩
      exact ⟨symbol, spoken.among symbol among, declaration⟩
    · intro symbol uses
      have user : ∀ other ∈ known ++ new,
          ∃ earlier ∈ before ++ call :: after, earlier.Uses other := by
        intro other among
        rcases List.mem_append.mp among with old | fresh
        · rcases used other old with ⟨earlier, place, usesOther⟩
          exact ⟨earlier, List.mem_append_left _ place, usesOther⟩
        · exact ⟨call, by simp, spoken.among other fresh⟩
      have member : symbol ∈ known ++ new :=
        single.mem_of_text_mem user (by simp) uses (spoken.covers symbol uses)
      rcases spoken.introduced.exactly_one member with
        ⟨line, declaration, once⟩
      refine ⟨line, declaration, ?_, ?_⟩
      · have silent : [call.command].filter (introduces symbol.text) = [] := by
          simp [call.not_introduces_command]
        rw [spoken.taken, List.filter_append, silent, List.append_nil] at once
        exact once
      · rcases spoken.introduced.after listens settings.checkLimit? running.2.2
          with ⟨further, complete, _⟩
        rcases complete.exactly_one (List.mem_append_left further member) with
          ⟨last, same, whole⟩
        rw [declaration, Option.some.injEq] at same
        subst last
        rw [sentIn, Session.after_append running.1, Session.after_cons onward]
        exact whole

theorem listens_answering : answering.Listens := by
  intro command answers
  rw [answering]
  simp only
  split
  · cases answers with
    | nil => exact ⟨_, _, rfl⟩
    | cons answer rest => exact ⟨_, _, rfl⟩
  · exact ⟨_, _, rfl⟩

/-- A count. -/
def tally : Term := .constant "tally" (.bitVec 8)

/-- A flag, with a name that has to be put between bars. -/
def raised : Term := .constant "is raised" .bool

/-- Calls that share their symbols. -/
def sharing : List SessionCall :=
  [.assertTerm (.disjunction raised (.equation tally (.bitVec 0 8))),
    .assertTerm (.negation raised), .checkSat, .evaluate tally]

/-- Each of the two symbols is introduced once, before the first assertion. -/
theorem sharing_introduced_once :
    (.close ∉ sharing ∧ SingleSignatures sharing) ∧
    sentIn answering .standard ["sat\n"] sharing =
      ["(set-option :produce-models true)", "(set-logic ALL)",
        "(declare-fun |is raised| () Bool)",
        "(declare-fun tally () (_ BitVec 8))",
        "(assert (or |is raised| (= tally (_ bv0 8))))",
        "(assert (not |is raised|))", "(check-sat)", "(get-value (tally))"] ∧
    ∀ symbol, (SessionCall.evaluate tally).Uses symbol →
      ∃ line, symbol.declaration? = some line ∧
        (sentIn answering .standard ["sat\n"] sharing).filter
          (introduces symbol.text) = [line] := by
  have running : .close ∉ sharing := by decide
  have single : SingleSignatures sharing := by decide +kernel
  refine ⟨⟨running, single⟩, by decide +kernel, ?_⟩
  intro symbol uses
  rcases ((symbols_introduced_once_before_use answering .standard ["sat\n"]
    sharing listens_answering running single).2 (sharing.take 3)
    (.evaluate tally) [] rfl).2 (by decide +kernel) with ⟨_, _, _, once⟩
  rcases once symbol uses with ⟨line, declaration, _, whole⟩
  exact ⟨line, declaration, whole⟩

end FlowWitness.Solver
