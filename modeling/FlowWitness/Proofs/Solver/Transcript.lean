import FlowWitness.Proofs.Solver.Honesty
import FlowWitness.Solver.Scripted

/-!
# What a conversation says

A conversation adds calls to a dialogue and takes none back.  What all the
calls have in common that it can make, with any solver and any answers,
follows from its parts.  A part that fails is the last, and a call that is
not answered is where it fails.
-/

namespace FlowWitness.Solver

open FlowWitness.Smt

/-- A solver that gives the same verdict on everything. -/
def oneVerdict (verdict : Verdict) : Backend CallCounts :=
  SolverScript.solver ⟨[], .ok verdict, [], []⟩

/-- The fault with which a call was answered. -/
def Interaction.fault? : Interaction → Option SolverError
  | opened (.error error) | asserted _ (.error error)
  | checked (.error error) | evaluated _ (.error error)
  | closed (.error error) => some error
  | _ => none

namespace Conversation

variable {State Result Next : Type} {Allowed : Interaction → Prop}

/-- Whatever the solver answers, only allowed calls are added. -/
def CallsOnly (Allowed : Interaction → Prop)
    (conversation : Conversation State Result) : Prop :=
  ∀ before, ∃ said, (conversation before).2.calls = said ++ before.calls ∧
    ∀ call ∈ said, Allowed call

theorem CallsOnly.suffix
    {conversation : Conversation State Result}
    {outcome : Except Failure Result} {before after : Dialogue State}
    (only : CallsOnly Allowed conversation)
    (talked : conversation before = (outcome, after)) :
    before.calls <:+ after.calls := by
  rcases only before with ⟨said, added, _⟩
  rw [talked] at added
  exact ⟨said, added.symm⟩

/-- A dialogue with allowed calls only is continued by such calls. -/
theorem CallsOnly.keeps
    {conversation : Conversation State Result}
    (only : CallsOnly Allowed conversation) {before : Dialogue State}
    (allowed : ∀ call ∈ before.calls, Allowed call) :
    ∀ call ∈ (conversation before).2.calls, Allowed call := by
  rcases only before with ⟨said, added, new⟩
  intro call member
  rw [added] at member
  rcases List.mem_append.mp member with inside | old
  · exact new call inside
  · exact allowed call old

theorem CallsOnly.mono
    {Wider : Interaction → Prop} {conversation : Conversation State Result}
    (only : CallsOnly Allowed conversation)
    (wider : ∀ call, Allowed call → Wider call) :
    CallsOnly Wider conversation := by
  intro before
  rcases only before with ⟨said, added, new⟩
  exact ⟨said, added, fun call member => wider call (new call member)⟩

theorem callsOnly_done (result : Result) :
    CallsOnly Allowed (done result : Conversation State Result) :=
  fun _ => ⟨[], rfl, by simp⟩

theorem callsOnly_fail (failure : Failure) :
    CallsOnly Allowed (fail failure : Conversation State Result) :=
  fun _ => ⟨[], rfl, by simp⟩

/-- The second part need only say allowed things about what the first gives. -/
theorem CallsOnly.andThen
    {first : Conversation State Result}
    {next : Result → Conversation State Next}
    (begins : CallsOnly Allowed first)
    (continues : ∀ result before after, first before = (.ok result, after) →
      CallsOnly Allowed (next result)) :
    CallsOnly Allowed (andThen first next) := by
  intro before
  rcases begins before with ⟨said, added, allowed⟩
  rw [Conversation.andThen]
  cases began : first before with
  | mk outcome middle =>
      rw [began] at added
      cases outcome with
      | error failure => exact ⟨said, added, allowed⟩
      | ok result =>
          rcases continues result before middle began middle with
            ⟨more, further, alsoAllowed⟩
          refine ⟨more ++ said, ?_, ?_⟩
          · calc
              (next result middle).2.calls = more ++ middle.calls := further
              _ = more ++ (said ++ before.calls) := congrArg (more ++ ·) added
              _ = more ++ said ++ before.calls := (List.append_assoc ..).symm
          · intro call member
            rcases List.mem_append.mp member with late | early
            · exact alsoAllowed call late
            · exact allowed call early

/-- A call is noted with its answer. -/
theorem calls_call
    (act : State → Except SolverError Result × State)
    (note : Except SolverError Result → Interaction)
    (before : Dialogue State) :
    (call act note before).2.calls =
      note (act before.solver).1 :: before.calls := by
  rw [call]
  cases answered : act before.solver with
  | mk answer after =>
      cases answer with
      | ok result => rfl
      | error failure => rfl

theorem calls_of_call_eq_ok
    {act : State → Except SolverError Result × State}
    {note : Except SolverError Result → Interaction}
    {before after : Dialogue State} {result : Result}
    (called : call act note before = (.ok result, after)) :
    after.calls = note (.ok result) :: before.calls := by
  have noted := calls_call act note before
  rwa [called, call_eq_ok called] at noted

theorem callsOnly_call
    {act : State → Except SolverError Result × State}
    {note : Except SolverError Result → Interaction}
    (allowed : ∀ answer, Allowed (note answer)) :
    CallsOnly Allowed (call act note) := by
  intro before
  exact ⟨[note (act before.solver).1], calls_call act note before,
    by simpa using allowed _⟩

theorem callsOnly_assertAll
    (solver : Backend State) (terms : List Term)
    (allowed : ∀ term ∈ terms, ∀ answer, Allowed (.asserted term answer)) :
    CallsOnly Allowed (assertAll solver terms) := by
  induction terms with
  | nil => exact callsOnly_done ()
  | cons term rest induction =>
      rw [List.forall_mem_cons] at allowed
      exact (callsOnly_call allowed.1).andThen
        (fun _ _ _ _ => induction allowed.2)

/-! ## The calls in order -/

variable {before after : Dialogue State}

theorem history_of_call_eq_ok
    {act : State → Except SolverError Result × State}
    {note : Except SolverError Result → Interaction} {result : Result}
    (called : call act note before = (.ok result, after)) :
    after.history = before.history ++ [note (.ok result)] := by
  rw [Dialogue.history, calls_of_call_eq_ok called, List.reverse_cons]
  rfl

/-- A call that fails is noted with its fault. -/
theorem history_of_call_eq_error
    {act : State → Except SolverError Result × State}
    {note : Except SolverError Result → Interaction} {failure : Failure}
    (called : call act note before = (.error failure, after)) :
    ∃ error, failure = .solver error ∧
      after.history = before.history ++ [note (.error error)] := by
  rw [call] at called
  cases answered : act before.solver with
  | mk answer state =>
      rw [answered] at called
      cases answer with
      | ok result => simp at called
      | error error =>
          simp only [Prod.mk.injEq, Except.error.injEq] at called
          rcases called with ⟨rfl, rfl⟩
          exact ⟨error, rfl, List.reverse_cons⟩

theorem history_of_assertAll_eq_ok
    {solver : Backend State} {terms : List Term}
    (asserted : assertAll solver terms before = (.ok (), after)) :
    after.history = before.history ++
      terms.map (fun term => .asserted term (.ok ())) := by
  induction terms generalizing before with
  | nil =>
      simp only [assertAll, done, Prod.mk.injEq, true_and] at asserted
      rw [asserted, List.map_nil, List.append_nil]
  | cons term rest induction =>
      rcases andThen_eq_ok asserted with ⟨_, middle, first, others⟩
      rw [induction others, history_of_call_eq_ok first, List.append_assoc]
      rfl

/-- Terms are asserted in order, until one of them cannot be. -/
theorem history_of_assertAll_eq_error
    {solver : Backend State} {terms : List Term} {failure : Failure}
    (failed : assertAll solver terms before = (.error failure, after)) :
    ∃ early term late error, terms = early ++ term :: late ∧
      failure = .solver error ∧
      after.history = before.history ++
        (early.map (fun term => .asserted term (.ok ())) ++
          [.asserted term (.error error)]) := by
  induction terms generalizing before with
  | nil => simp [assertAll, done] at failed
  | cons first others induction =>
      rcases andThen_eq_error failed with here | ⟨_, middle, began, further⟩
      · rcases history_of_call_eq_error here with ⟨error, same, added⟩
        exact ⟨[], first, others, error, rfl, same, added⟩
      · rcases induction further with
          ⟨early, term, late, error, split, same, added⟩
        refine ⟨first :: early, term, late, error, ?_, same, ?_⟩
        · rw [split]
          rfl
        · rw [added, history_of_call_eq_ok began, List.append_assoc]
          rfl

end Conversation

end FlowWitness.Solver
