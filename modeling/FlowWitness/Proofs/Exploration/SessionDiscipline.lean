import FlowWitness.Proofs.Exploration.Sessions

/-!
# The discipline of a search

A search talks to the solver in sessions, one for every turn that merges a
batch at a target, in the order of the turns.  Whatever the solver answers,
and wherever it fails, the calls of a search are those of whole sessions, one
after the other, and perhaps of a last one that breaks off; then the search
has failed as well, with the fault of the very last call or with the value
that it could not read.

The verdicts of the sessions are what the search comes to: a model is found in
the last session or not at all, and without one the search is undecided if a
session is, or if a state was dropped.
-/

namespace FlowWitness.Exploration

open FlowWitness.Graph
open FlowWitness.Program
open FlowWitness.Smt
open FlowWitness.Solver
open FlowWitness.Solver.Conversation

/-! ## The questions of a log -/

/--
What a turn that merges a target asks the solver: the conditions of the nodes
on the stack, from the bottom to the top, and the marker of the visit.
-/
def Turn.question (turn : Turn) : Question :=
  ⟨turn.state.conditions.nodes.reverse.map ConditionNode.term, turn.marker⟩

namespace Problem

/-- Does the turn merge its batch at a target? -/
def asks (problem : Problem) (turn : Turn) : Bool :=
  problem.admits turn && problem.targets.contains turn.block

/-- The questions of the turns, in order. -/
def questions (problem : Problem) (log : List Turn) : List Question :=
  ((log.filter problem.asks).map Turn.question).reverse

theorem asks_iff
    {problem : Problem} {run : Run} {batch : Batch PathState}
    {ways : Option (List Departure)} :
    problem.asks ⟨run, batch, ways⟩ = true ↔
      run.merged.count batch.block < problem.maxVisits ∧
        batch.block ∈ problem.targets := by
  rw [asks, admits, Bool.and_eq_true, decide_eq_true_iff,
    List.contains_iff_mem]
  rfl

theorem questions_append (problem : Problem) (late early : List Turn) :
    problem.questions (late ++ early) =
      problem.questions early ++ problem.questions late := by
  simp [questions]

theorem questions_cons (problem : Problem) (turn : Turn) (log : List Turn) :
    problem.questions (turn :: log) =
      problem.questions log ++ problem.questions [turn] :=
  questions_append problem [turn] log

theorem questions_of_asks
    {problem : Problem} {turn : Turn} (asks : problem.asks turn = true) :
    problem.questions [turn] = [turn.question] := by
  simp [questions, asks]

theorem questions_of_not_asks
    {problem : Problem} {turn : Turn} (silent : ¬ problem.asks turn = true) :
    problem.questions [turn] = [] := by
  simp [questions, silent]

/--
Some turns went by with these checks, none of which had a model.  The counters
show the checks, and where the search did not go on from a target, it was
refuted.
-/
structure Conversed (problem : Problem) (log : List Turn)
    (checks : List (Check problem.graph.parameters))
    (old new : Statistics) : Prop where
  asked : checks.map Check.question = problem.questions log
  counted : new.solverChecks = old.solverChecks + checks.length
  undecided : new.unknownChecks = old.unknownChecks +
    checks.countP (fun check => check.verdict = .unknown)
  missed : ∀ check ∈ checks, check.verdict ≠ .sat
  stopped : ∀ turn ∈ log, problem.asks turn = true → turn.ways = none →
    ∃ check ∈ checks, check.verdict = .unsat

variable {problem : Problem} {log : List Turn}

theorem Conversed.trans
    {later : List Turn} {old middle new : Statistics}
    {checks more : List (Check problem.graph.parameters)}
    (early : problem.Conversed log checks old middle)
    (late : problem.Conversed later more middle new) :
    problem.Conversed (later ++ log) (checks ++ more) old new := by
  constructor
  case asked =>
    rw [List.map_append, early.asked, late.asked, questions_append]
  case counted =>
    rw [late.counted, early.counted, List.length_append, Nat.add_assoc]
  case undecided =>
    rw [late.undecided, early.undecided, List.countP_append, Nat.add_assoc]
  case missed =>
    rw [List.forall_mem_append]
    exact ⟨early.missed, late.missed⟩
  case stopped =>
    intro turn member asks ended
    rcases List.mem_append.mp member with new | old
    · rcases late.stopped turn new asks ended with ⟨check, inside, unsat⟩
      exact ⟨check, List.mem_append_right checks inside, unsat⟩
    · rcases early.stopped turn old asks ended with ⟨check, inside, unsat⟩
      exact ⟨check, List.mem_append_left more inside, unsat⟩

/-- A turn in silence. -/
theorem conversed_silent
    {turn : Turn} {old new : Statistics}
    (silent : ¬ problem.asks turn = true)
    (checks : new.solverChecks = old.solverChecks)
    (unknown : new.unknownChecks = old.unknownChecks) :
    problem.Conversed [turn] [] old new := by
  refine ⟨(questions_of_not_asks silent).symm, checks, unknown, by simp, ?_⟩
  intro other member asks
  rw [List.mem_singleton.mp member] at asks
  exact absurd asks silent

/-- A turn with a check. -/
theorem conversed_check
    {turn : Turn} {check : Check problem.graph.parameters}
    {old new : Statistics} (asks : problem.asks turn = true)
    (question : check.question = turn.question)
    (missed : check.verdict ≠ .sat)
    (checks : new.solverChecks = old.solverChecks + 1)
    (unknown : new.unknownChecks = old.unknownChecks +
      if check.verdict = .unknown then 1 else 0)
    (stopped : turn.ways = none → check.verdict = .unsat) :
    problem.Conversed [turn] [check] old new := by
  constructor
  case asked => rw [questions_of_asks asks, List.map_singleton, question]
  case counted => exact checks
  case undecided => simpa [List.countP_singleton] using unknown
  case missed => simpa using missed
  case stopped =>
    intro other member _ ended
    rw [List.mem_singleton.mp member] at ended
    exact ⟨check, List.mem_singleton_self check, stopped ended⟩

/-! ## What a step says -/

variable {State : Type} {solver : Backend State} {statistics : Statistics}
  {start : State} {run next : Run} {batch : Batch PathState}
  {rest : Worklist PathState} {before after : Dialogue State}
  {ways : Option (List Departure)}

theorem history_of_proceed
    {source : PathState} {marker : Term} {outcome : Except Failure Progress}
    (proceeded : problem.proceed run source marker before =
      (outcome, after)) :
    after.history = before.history := by
  cases moved : problem.advance run source marker with
  | ok next =>
      simp only [proceed, moved, done, Prod.mk.injEq] at proceeded
      rw [proceeded.2]
  | error violation =>
      simp only [proceed, moved, fail, Prod.mk.injEq] at proceeded
      rw [proceeded.2]

theorem history_of_conclude
    {source : PathState} {marker : Term} {answer : TargetAnswer}
    {outcome : Except Failure Progress}
    (concluded : problem.conclude run source marker answer before =
      (outcome, after)) :
    after.history = before.history := by
  cases answer with
  | undecided => exact history_of_proceed concluded
  | reached witness =>
      simp only [conclude, done, Prod.mk.injEq] at concluded
      rw [concluded.2]
  | refuted =>
      simp only [conclude, done, Prod.mk.injEq] at concluded
      rw [concluded.2]

/-- An answer that the search goes on after is counted by its verdict. -/
theorem counted_of_conclude
    {source : PathState} {marker : Term} {answer : TargetAnswer}
    (concluded : problem.conclude run source marker answer before =
      (.ok (.continuing next), after)) :
    answer.verdict ≠ .sat ∧
      next.statistics.solverChecks = run.statistics.solverChecks ∧
      next.statistics.unknownChecks = run.statistics.unknownChecks +
        if answer.verdict = .unknown then 1 else 0 := by
  cases answer with
  | reached witness => simp [conclude, done] at concluded
  | refuted =>
      simp only [conclude, done, Prod.mk.injEq, Except.ok.injEq,
        Progress.continuing.injEq] at concluded
      rw [concluded.1]
      exact ⟨by decide, rfl, rfl⟩
  | undecided =>
      rcases proceed_eq_ok concluded with ⟨edges, leaves, same⟩
      cases same
      rw [queueAll_statistics]
      exact ⟨by decide, rfl, rfl⟩

/-- A step without a question says nothing. -/
theorem history_of_step_of_not_asks
    (silent : ¬ problem.asks ⟨run, batch, ways⟩ = true)
    {outcome : Except Failure Progress}
    (stepped : problem.step solver run batch before = (outcome, after)) :
    after.history = before.history := by
  rcases Nat.lt_or_ge (run.merged.count batch.block) problem.maxVisits with
    fresh | spent
  · have inner : batch.block ∉ problem.targets :=
      fun target => silent (asks_iff.mpr ⟨fresh, target⟩)
    rw [step_of_inner solver fresh inner] at stepped
    exact history_of_proceed stepped
  · rw [step_of_spent solver spent] at stepped
    simp only [done, Prod.mk.injEq] at stepped
    rw [stepped.2]

theorem Takes.conversed_of_not_asks
    (takes : problem.Takes run batch ways next)
    (silent : ¬ problem.asks ⟨run, batch, ways⟩ = true) :
    problem.Conversed [⟨run, batch, ways⟩] [] run.statistics
      next.statistics := by
  cases takes with
  | dropped spent => exact conversed_silent silent rfl rfl
  | refuted fresh target =>
      exact absurd (asks_iff.mpr ⟨fresh, target⟩) silent
  | passed fresh inner leaves =>
      apply conversed_silent silent <;> rw [queueAll_statistics] <;> rfl
  | undecided fresh target leaves =>
      exact absurd (asks_iff.mpr ⟨fresh, target⟩) silent

theorem Takes.unknownChecks_of_none
    (takes : problem.Takes run batch none next) :
    next.statistics.unknownChecks = run.statistics.unknownChecks := by
  cases takes with
  | dropped spent => rfl
  | refuted fresh target => rfl

/-- What a search asks is the question of the turn. -/
theorem ask_eq (ways : Option (List Departure)) :
    problem.ask solver run batch =
      askTarget solver problem.graph.parameters
        (Turn.question ⟨run, batch, ways⟩).conditions
        (Turn.question ⟨run, batch, ways⟩).marker := by
  rw [ask, Turn.question, List.map_reverse]
  rfl

/-- A step that goes on has asked its question, if it has one, and no more. -/
theorem history_of_step_eq_continuing
    (stepped : problem.step solver run batch before =
      (.ok (.continuing next), after))
    (takes : problem.Takes run batch ways next) :
    ∃ checks, after.history = before.history ++ checks.flatMap Check.calls ∧
      problem.Conversed [⟨run, batch, ways⟩] checks run.statistics
        next.statistics := by
  by_cases asks : problem.asks ⟨run, batch, ways⟩ = true
  · rcases asks_iff.mp asks with ⟨fresh, target⟩
    rw [step_of_target solver fresh target] at stepped
    rcases andThen_eq_ok stepped with ⟨answer, middle, asked, concluded⟩
    rw [ask_eq ways] at asked
    rcases history_of_askTarget_eq_ok asked with
      ⟨check, question, rfl, added⟩
    rcases counted_of_conclude concluded with ⟨missed, checks, unknown⟩
    rw [check.verdict_answer] at missed unknown
    refine ⟨[check], ?_, conversed_check asks question missed checks unknown ?_⟩
    · rw [List.flatMap_singleton, ← added]
      exact history_of_conclude concluded
    · rintro ⟨rfl⟩
      have same := takes.unknownChecks_of_none
      cases verdict : check.verdict with
      | sat => exact absurd verdict missed
      | unsat => rfl
      | unknown =>
          rw [same, verdict] at unknown
          exact absurd unknown (Nat.lt_succ_self _).ne
  · exact ⟨[], by simpa using history_of_step_of_not_asks asks stepped,
      takes.conversed_of_not_asks asks⟩

/-- A step that ends the search has a model from its question, and reads it. -/
theorem history_of_step_eq_finished
    {report : Report}
    (stepped : problem.step solver run batch before =
      (.ok (.finished report), after)) :
    problem.asks ⟨run, batch, none⟩ = true ∧
      ∃ check : Check problem.graph.parameters,
        check.question = Turn.question ⟨run, batch, none⟩ ∧
        check.verdict = .sat ∧
        report.outcome = .reachable ⟨check.readings.map Reading.entry⟩ ∧
        after.history = before.history ++ check.calls := by
  rcases step_eq_finished stepped with ⟨fresh, target, _⟩
  refine ⟨asks_iff.mpr ⟨fresh, target⟩, ?_⟩
  rw [step_of_target solver fresh target] at stepped
  rcases andThen_eq_ok stepped with ⟨answer, middle, asked, concluded⟩
  rw [ask_eq none] at asked
  rcases history_of_askTarget_eq_ok asked with ⟨check, question, rfl, added⟩
  have model : check.verdict = .sat := by
    rw [← check.verdict_answer]
    cases found : check.answer with
    | reached witness => rfl
    | refuted => simp [found, conclude, done] at concluded
    | undecided =>
        rw [found] at concluded
        rcases proceed_eq_ok concluded with ⟨_, _, other⟩
        cases other
  refine ⟨check, question, model, ?_, ?_⟩
  · rw [Check.answer, model] at concluded
    simp only [conclude, done, Prod.mk.injEq, Except.ok.injEq,
      Progress.finished.injEq] at concluded
    rw [← concluded.1]
  · rw [← added]
    exact history_of_conclude concluded

/--
A step that fails has asked its question, if it has one, and finds no way past
the block; or its session breaks off.
-/
theorem history_of_step_eq_error
    (named : ∀ parameter ∈ problem.graph.parameters,
      ∃ key, keyOf parameter = .ok key)
    {failure : Failure}
    (failed : problem.step solver run batch before = (.error failure, after)) :
    (∃ violation counted, failure = .contract violation ∧
      problem.advance counted (run.mergedState batch)
        (run.marker batch.block) = .error violation ∧
      ∃ checks : List (Check problem.graph.parameters),
        after.history = before.history ++ checks.flatMap Check.calls ∧
        checks.map Check.question = problem.questions [⟨run, batch, none⟩] ∧
        ∀ check ∈ checks, check.verdict = .unknown) ∨
    (problem.asks ⟨run, batch, none⟩ = true ∧
      ∃ said, Breaks problem.graph.parameters
        (Turn.question ⟨run, batch, none⟩) failure said ∧
        after.history = before.history ++ said) := by
  rcases Nat.lt_or_ge (run.merged.count batch.block) problem.maxVisits with
    fresh | spent
  · by_cases target : batch.block ∈ problem.targets
    · have asks : problem.asks ⟨run, batch, none⟩ = true :=
        asks_iff.mpr ⟨fresh, target⟩
      rw [step_of_target solver fresh target] at failed
      rcases andThen_eq_error failed with
        asking | ⟨answer, middle, asked, concluded⟩
      · rw [ask_eq none] at asking
        exact Or.inr ⟨asks, history_of_askTarget_eq_error named asking⟩
      · rw [ask_eq none] at asked
        rcases history_of_askTarget_eq_ok asked with
          ⟨check, question, rfl, added⟩
        cases found : check.answer with
        | reached witness => simp [found, conclude, done] at concluded
        | refuted => simp [found, conclude, done] at concluded
        | undecided =>
            rw [found] at concluded
            rcases proceed_eq_error concluded with ⟨violation, refused, same⟩
            refine Or.inl ⟨violation, _, same, refused, [check], ?_, ?_, ?_⟩
            · rw [List.flatMap_singleton, ← added]
              exact history_of_proceed concluded
            · rw [questions_of_asks asks, List.map_singleton, question]
            · rw [List.forall_mem_singleton, ← check.verdict_answer, found]
              rfl
    · have silent : ¬ problem.asks ⟨run, batch, none⟩ = true :=
        fun asks => target (asks_iff.mp asks).2
      rw [step_of_inner solver fresh target] at failed
      rcases proceed_eq_error failed with ⟨violation, refused, same⟩
      exact Or.inl ⟨violation, _, same, refused, [],
        by simpa using history_of_proceed failed,
        (questions_of_not_asks silent).symm, by simp⟩
  · rw [step_of_spent solver spent] at failed
    simp [done] at failed

/-! ## What a search says -/

theorem Turns.named
    (turns : problem.Turns solver statistics start log run after) :
    ∀ parameter ∈ problem.graph.parameters,
      ∃ key, keyOf parameter = .ok key := by
  induction turns with
  | seeded made => exact exists_seed_iff.mp ⟨_, made⟩
  | turn earlier popped stepped takes induction => exact induction

/-- The turns of a search have a session for every question, and no more. -/
theorem Turns.conversed
    (turns : problem.Turns solver statistics start log run after) :
    ∃ checks, after.history = checks.flatMap Check.calls ∧
      problem.Conversed log checks statistics run.statistics := by
  induction turns with
  | seeded made =>
      rcases seed_eq_ok made with ⟨versions, _, _, rfl⟩
      rw [enqueue_statistics]
      exact ⟨[], rfl, rfl, rfl, rfl, by simp, by simp⟩
  | turn earlier popped stepped takes induction =>
      rcases induction with ⟨checks, said, conversed⟩
      rcases history_of_step_eq_continuing stepped takes with
        ⟨more, added, further⟩
      refine ⟨checks ++ more, ?_, conversed.trans further⟩
      rw [added, said, List.flatMap_append]

end Problem

/-! ## Verdicts -/

/-- The report of a search that had these checks. -/
structure Judged {parameters : List Variable}
    (checks : List (Check parameters)) (report : Report) : Prop where
  counted : report.statistics.solverChecks = checks.length
  reachable : (∃ witness, report.outcome = .reachable witness) ↔
    ∃ check, checks.getLast? = some check ∧ check.verdict = .sat
  unknown : report.outcome = .unknown ↔
    (∀ check ∈ checks, check.verdict ≠ .sat) ∧
      ((∃ check ∈ checks, check.verdict = .unknown) ∨
        0 < report.statistics.droppedStates)
  unreachable : report.outcome = .unreachable ↔
    (∀ check ∈ checks, check.verdict = .unsat) ∧
      report.statistics.droppedStates = 0

/-- With nothing left to look at, the checks without a model decide. -/
theorem Problem.Conversed.judged
    {problem : Problem} {log : List Turn}
    {checks : List (Check problem.graph.parameters)} {start : Statistics}
    {run : Run} (fresh : start.solverChecks = 0 ∧ start.unknownChecks = 0)
    (conversed : problem.Conversed log checks start run.statistics) :
    Judged checks run.exhausted := by
  have counted : run.statistics.solverChecks = checks.length := by
    rw [conversed.counted, fresh.1, Nat.zero_add]
  have undecided : 0 < run.statistics.unknownChecks ↔
      ∃ check ∈ checks, check.verdict = .unknown := by
    rw [conversed.undecided, fresh.2, Nat.zero_add, List.countP_pos_iff]
    simp
  have noModel : ¬ ∃ check, checks.getLast? = some check ∧
      check.verdict = .sat := by
    rintro ⟨check, last, sat⟩
    exact conversed.missed check (List.mem_of_getLast? last) sat
  rw [Run.exhausted]
  split
  · next openEnd =>
      rw [undecided] at openEnd
      refine ⟨counted, by simpa using noModel, ?_, ?_⟩
      · exact iff_of_true rfl ⟨conversed.missed, openEnd⟩
      · refine iff_of_false (by simp) ?_
        rintro ⟨refuted, none⟩
        rcases openEnd with ⟨check, member, unknown⟩ | dropped
        · rw [refuted check member] at unknown
          cases unknown
        · exact absurd none dropped.ne'
  · next closed =>
      rw [undecided, not_or] at closed
      refine ⟨counted, by simpa using noModel, ?_, ?_⟩
      · refine iff_of_false (by simp) ?_
        rintro ⟨_, unknown | dropped⟩
        · exact closed.1 unknown
        · exact closed.2 dropped
      · refine iff_of_true rfl ⟨?_, Nat.eq_zero_of_not_pos closed.2⟩
        intro check member
        cases verdict : check.verdict with
        | sat => exact absurd verdict (conversed.missed check member)
        | unsat => rfl
        | unknown => exact absurd ⟨check, member, verdict⟩ closed.1

/-- A model in the last check decides. -/
theorem judged_of_model
    {parameters : List Variable} {checks : List (Check parameters)}
    {check : Check parameters} {witness : Witness} {statistics : Statistics}
    (model : check.verdict = .sat)
    (counted : statistics.solverChecks = checks.length + 1) :
    Judged (checks ++ [check]) ⟨.reachable witness, statistics⟩ := by
  have last : check ∈ checks ++ [check] := by simp
  refine ⟨by simpa using counted, ?_, ?_, ?_⟩
  · exact iff_of_true ⟨witness, rfl⟩ ⟨check, List.getLast?_concat, model⟩
  · refine iff_of_false (by simp) ?_
    rintro ⟨missed, _⟩
    exact missed check last model
  · refine iff_of_false (by simp) ?_
    rintro ⟨refuted, _⟩
    rw [refuted check last] at model
    cases model

/-! ## The whole search -/

/--
How the sessions of a search end: all are whole, and the solver is not to
blame for the result; or the search fails with the session that breaks off.
-/
inductive Closes (parameters : List Variable) :
    Except Failure Report → List Question → List Interaction → Prop where
  | whole {result : Except Failure Report}
      (blameless : ∀ error, result ≠ .error (.solver error)) :
      Closes parameters result [] []
  | broken {question : Question} {failure : Failure}
      {said : List Interaction}
      (breaks : Breaks parameters question failure said) :
      Closes parameters (.error failure) [question] said

/--
The calls of a search with the given log and result: a session for each of its
questions, in order, of which only the last may break off.
-/
structure Disciplined (problem : Problem) (log : List Turn)
    (result : Except Failure Report) (history : List Interaction)
    (checks : List (Check problem.graph.parameters)) : Prop where
  sessions : ∃ unfinished said,
    Closes problem.graph.parameters result unfinished said ∧
    history = checks.flatMap Check.calls ++ said ∧
    problem.questions log = checks.map Check.question ++ unfinished
  models : ∀ check ∈ checks.dropLast, check.verdict ≠ .sat
  found : ∀ check ∈ checks.getLast?, check.verdict = .sat →
    ∃ report, result = .ok report
  faults : ∀ call ∈ history.dropLast, call.fault? = none
  blamed : ∀ call ∈ history.getLast?, ∀ error, call.fault? = some error →
    result = .error (.solver error)
  judged : ∀ report, result = .ok report → Judged checks report

section Searches

variable {problem : Problem} {log : List Turn}
  {result : Except Failure Report} {history : List Interaction}
  {checks : List (Check problem.graph.parameters)}

theorem fault?_of_mem_checks
    {parameters : List Variable} (checks : List (Check parameters)) :
    ∀ call ∈ checks.flatMap Check.calls, call.fault? = none := by
  intro call member
  rcases List.mem_flatMap.mp member with ⟨check, _, inside⟩
  exact check.fault?_of_mem_calls call inside

/-- A search all of whose sessions are whole. -/
theorem disciplined_of_whole
    (blameless : ∀ error, result ≠ .error (.solver error))
    (said : history = checks.flatMap Check.calls)
    (asked : problem.questions log = checks.map Check.question)
    (models : ∀ check ∈ checks.dropLast, check.verdict ≠ .sat)
    (found : ∀ check ∈ checks.getLast?, check.verdict = .sat →
      ∃ report, result = .ok report)
    (judged : ∀ report, result = .ok report → Judged checks report) :
    Disciplined problem log result history checks := by
  have faultless : ∀ call ∈ history, call.fault? = none := by
    rw [said]
    exact fault?_of_mem_checks checks
  constructor
  case sessions => exact ⟨[], [], .whole blameless, by simpa, by simpa⟩
  case models => exact models
  case found => exact found
  case faults =>
    exact fun call member => faultless call (List.mem_of_mem_dropLast member)
  case blamed =>
    intro call last error fault
    rw [faultless call (List.mem_of_getLast? last)] at fault
    cases fault
  case judged => exact judged

/-- A search all of whose sessions are whole, and none of which has a model. -/
theorem disciplined_of_missed
    (blameless : ∀ error, result ≠ .error (.solver error))
    (said : history = checks.flatMap Check.calls)
    (asked : problem.questions log = checks.map Check.question)
    (missed : ∀ check ∈ checks, check.verdict ≠ .sat)
    (judged : ∀ report, result = .ok report → Judged checks report) :
    Disciplined problem log result history checks := by
  apply disciplined_of_whole blameless said asked
  · exact fun check member => missed check (List.mem_of_mem_dropLast member)
  · intro check final model
    exact absurd model (missed check (List.mem_of_getLast? final))
  · exact judged

/-- A search whose last session breaks off. -/
theorem disciplined_of_broken
    {question : Question} {failure : Failure} {said : List Interaction}
    (breaks : Breaks problem.graph.parameters question failure said)
    (missed : ∀ check ∈ checks, check.verdict ≠ .sat)
    (told : history = checks.flatMap Check.calls ++ said)
    (asked : problem.questions log =
      checks.map Check.question ++ [question]) :
    Disciplined problem log (.error failure) history checks := by
  rcases breaks.exists_last with ⟨early, last, split, faultless, blamed⟩
  have whole : history = (checks.flatMap Check.calls ++ early) ++ [last] := by
    rw [told, split, List.append_assoc]
  constructor
  case sessions => exact ⟨[question], said, .broken breaks, told, asked⟩
  case models =>
    exact fun check member => missed check (List.mem_of_mem_dropLast member)
  case found =>
    intro check final model
    exact absurd model (missed check (List.mem_of_getLast? final))
  case faults =>
    rw [whole, List.dropLast_concat, List.forall_mem_append]
    exact ⟨fault?_of_mem_checks checks, faultless⟩
  case blamed =>
    intro call final error fault
    rw [whole, List.getLast?_concat, Option.mem_some_iff] at final
    rw [blamed error (final ▸ fault)]
  case judged => simp

/-- A search without checks that is refused for its graph. -/
theorem disciplined_of_refused (problem : Problem)
    (violation : ContractViolation) :
    Disciplined problem [] (.error (.contract violation)) [] [] :=
  disciplined_of_missed (by simp) rfl rfl (by simp) (by simp)

variable {State : Type} {solver : Backend State} {statistics : Statistics}
  {start : State} {after : Dialogue State}

theorem Problem.Stops.disciplined
    (fresh : statistics.solverChecks = 0 ∧ statistics.unknownChecks = 0)
    (stops : problem.Stops solver statistics start log result after) :
    ∃ checks, Disciplined problem log result after.history checks := by
  cases stops with
  | exhausted turns empty =>
      rcases turns.conversed with ⟨checks, said, conversed⟩
      refine ⟨checks, disciplined_of_missed (by simp) said
        conversed.asked.symm conversed.missed ?_⟩
      rintro _ ⟨rfl⟩
      exact conversed.judged fresh
  | finished turns popped stepped =>
      rcases turns.conversed with ⟨checks, said, conversed⟩
      rcases step_eq_finished stepped with ⟨_, _, witness, rfl⟩
      rcases history_of_step_eq_finished stepped with
        ⟨asks, check, question, model, _, added⟩
      refine ⟨checks ++ [check], disciplined_of_whole (by simp) ?_ ?_ ?_ ?_ ?_⟩
      · rw [added, said, List.flatMap_append, List.flatMap_singleton]
      · rw [questions_cons, questions_of_asks asks, List.map_append,
          conversed.asked, List.map_singleton, question]
      · rw [List.dropLast_concat]
        exact conversed.missed
      · exact fun _ _ _ => ⟨_, rfl⟩
      · rintro _ ⟨rfl⟩
        have counted := conversed.counted
        rw [fresh.1, Nat.zero_add] at counted
        exact judged_of_model model (congrArg (· + 1) counted)
  | failed turns popped stepped =>
      rcases turns.conversed with ⟨checks, said, conversed⟩
      rcases history_of_step_eq_error turns.named stepped with
        ⟨violation, counted, rfl, _, more, added, asked, undecided⟩ |
        ⟨asks, broken, breaks, added⟩
      · have missed : ∀ check ∈ checks ++ more, check.verdict ≠ .sat := by
          rw [List.forall_mem_append]
          refine ⟨conversed.missed, fun check member model => ?_⟩
          rw [undecided check member] at model
          cases model
        refine ⟨checks ++ more, disciplined_of_missed (by simp) ?_ ?_ missed
          (by simp)⟩
        · rw [added, said, List.flatMap_append]
        · rw [questions_cons, List.map_append, conversed.asked, asked]
      · refine ⟨checks, disciplined_of_broken breaks conversed.missed ?_ ?_⟩
        · rw [added, said]
        · rw [questions_cons, questions_of_asks asks, conversed.asked]

/-- Every search keeps to its sessions. -/
theorem Explored.disciplined
    {graph : FlowGraph} {targets : List BlockId} {maxVisits : Nat}
    (explored :
      Explored solver graph targets maxVisits start log result after) :
    ∃ checks, Disciplined (.ofTargets graph targets maxVisits) log result
      after.history checks := by
  cases explored with
  | foreign found => exact ⟨[], disciplined_of_refused _ _⟩
  | unranked outside =>
      refine ⟨[], disciplined_of_missed (by simp) rfl rfl (by simp) ?_⟩
      rintro _ ⟨rfl⟩
      exact ⟨rfl, by simp, by simp [Statistics.atStart],
        by simp [Statistics.atStart]⟩
  | unseeded entered violated => exact ⟨[], disciplined_of_refused _ _⟩
  | searched entered stops => exact stops.disciplined ⟨rfl, rfl⟩

/-- The sessions of a search with a report are all whole. -/
theorem Disciplined.whole
    {report : Report}
    (disciplined : Disciplined problem log (.ok report) history checks) :
    history = checks.flatMap Check.calls ∧
      checks.map Check.question = problem.questions log := by
  rcases disciplined.sessions with ⟨unfinished, said, closes, told, asked⟩
  cases closes with
  | whole blameless =>
      rw [List.append_nil] at told asked
      exact ⟨told, asked.symm⟩

end Searches

/--
A search talks to the solver in sessions, one for every merge at a target: it
is opened, asserts the conditions from bottom to top and then the marker of
the visit, is decided, reads version zero of every parameter in order if there
is a model, and is closed before the next is opened.  Only the last session
may break off, with a fault or with a value that does not convert, and the
search then fails with that and says no more.  The sessions of a search with a
report are counted in it, and it is by their verdicts that a target is
reachable, not reachable, or neither.
-/
theorem sessions_are_disciplined
    {State : Type} (solver : Backend State) (start : State)
    (graph : FlowGraph) (targets : List BlockId) (maxVisits : Nat) :
    ∃ log,
      Explored solver graph targets maxVisits start log
        (explore solver graph targets maxVisits (.start start)).1
        (explore solver graph targets maxVisits (.start start)).2 ∧
      ∃ checks, Disciplined (.ofTargets graph targets maxVisits) log
        (explore solver graph targets maxVisits (.start start)).1
        (explore solver graph targets maxVisits (.start start)).2.history
        checks := by
  rcases exists_explored solver graph targets maxVisits start with
    ⟨log, explored⟩
  exact ⟨log, explored, explored.disciplined⟩

end FlowWitness.Exploration
