import FlowWitness.Proofs.Solver.Honesty
import Mathlib.Data.List.Dedup

/-!
# The exhaustive solver

A solver that tries every valuation of the constants in what was asserted.
The value of a term depends on its constants only, so if any valuation
satisfies the terms, one of those tried does: the solver is exact.  It is of
no use on wide words, and answers small questions by evaluation.
-/

namespace FlowWitness.Smt

/-! ## The constants of a term -/

namespace Term

/-- The declared constants of a term, with repetition. -/
def constants : Term → List FunctionSymbol
  | .bool _ => []
  | .bitVec _ _ => []
  | .nullary symbol => if symbol.isBuiltin then [] else [symbol]
  | .unary _ argument => argument.constants
  | .binary _ first second => first.constants ++ second.constants
  | .ternary _ _ _ _ => []

/-- The value of a term depends on its constants only. -/
theorem eval_congr
    {first second : Valuation} (term : Term)
    (same : ∀ symbol ∈ term.constants,
      first.read symbol.name symbol.result =
        second.read symbol.name symbol.result) :
    term.eval first = term.eval second := by
  induction term with
  | bool value => rfl
  | bitVec value width => rfl
  | nullary symbol =>
      simp only [eval]
      split
      · rfl
      · next declared => exact same symbol (by simp [constants, declared])
  | unary symbol argument induction =>
      simp only [eval, induction same]
  | binary symbol left right leftInduction rightInduction =>
      have leftSame := leftInduction (fun constant member =>
        same constant (List.mem_append_left _ member))
      have rightSame := rightInduction (fun constant member =>
        same constant (List.mem_append_right _ member))
      simp only [eval, leftSame, rightSame]
  | ternary symbol left right third => rfl

end Term

/-! ## All valuations of some constants -/

namespace Valuation

/-- The valuation that gives `false` and zero to everything. -/
def blank : Valuation := ⟨fun _ => false, fun _ _ => 0⟩

/-- The values of a sort. -/
def valuesOf : SmtSort → List Value
  | .bool => [.bool false, .bool true]
  | .bitVec width =>
    (List.range (wordCount width)).map (fun bits =>
      .word width (BitVec.ofNat width bits))
  | _ => []

/-- The valuations of some constants, blank on everything else. -/
def enumerate : List FunctionSymbol → List Valuation
  | [] => [blank]
  | symbol :: rest =>
    (enumerate rest).flatMap (fun valuation =>
      match valuesOf symbol.result with
      | [] => [valuation]
      | values => values.map (valuation.withValue symbol.name))

theorem mem_valuesOf
    {valuation : Valuation} {name : String} {sort : SmtSort} {value : Value}
    (given : valuation.read name sort = some value) :
    value ∈ valuesOf sort ∧ value.sort = sort := by
  cases sort with
  | bool =>
      simp only [read, Option.some.injEq] at given
      subst value
      cases valuation.truth name <;> simp [valuesOf, Value.sort]
  | bitVec width =>
      simp only [read, Option.some.injEq] at given
      subst value
      refine ⟨List.mem_map.mpr ⟨(valuation.word name width).toNat, ?_, ?_⟩, rfl⟩
      · exact List.mem_range.mpr (valuation.word name width).isLt
      · simp
  | _ => simp [read] at given

/-- Every valuation agrees with an enumerated one on the constants. -/
theorem exists_mem_enumerate
    (valuation : Valuation) (symbols : List FunctionSymbol) :
    ∃ found ∈ enumerate symbols, ∀ symbol ∈ symbols,
      found.read symbol.name symbol.result =
        valuation.read symbol.name symbol.result := by
  induction symbols with
  | nil => exact ⟨blank, by simp [enumerate], by simp⟩
  | cons symbol rest induction =>
      rcases induction with ⟨found, member, same⟩
      cases given : valuation.read symbol.name symbol.result with
      | none =>
          have noValues : valuesOf symbol.result = [] := by
            cases sort : symbol.result <;> simp_all [read, valuesOf]
          refine ⟨found, ?_, ?_⟩
          · rw [enumerate, List.mem_flatMap]
            exact ⟨found, member, by simp [noValues]⟩
          · rw [List.forall_mem_cons]
            refine ⟨?_, same⟩
            rw [given]
            cases sort : symbol.result <;> simp_all [read]
      | some value =>
          rcases mem_valuesOf given with ⟨among, sorted⟩
          refine ⟨found.withValue symbol.name value, ?_, ?_⟩
          · rw [enumerate, List.mem_flatMap]
            refine ⟨found, member, ?_⟩
            split
            · next none => simp [none] at among
            · exact List.mem_map_of_mem among
          · rw [List.forall_mem_cons]
            constructor
            · rw [given, ← sorted, read_withValue_self]
            · intro other inRest
              by_cases names : other.name = symbol.name
              · by_cases sorts : other.result = value.sort
                · rw [names, sorts, read_withValue_self, sorted, given]
                · rw [read_withValue_of_ne found value (Or.inr sorts)]
                  exact same other inRest
              · rw [read_withValue_of_ne found value (Or.inl names)]
                exact same other inRest

/-- A valuation that satisfies the terms, if there is one. -/
def findModel? (terms : List Term) : Option Valuation :=
  (enumerate (terms.flatMap Term.constants).dedup).find? (fun valuation =>
    terms.all (fun term => decide (valuation.Satisfies term)))

theorem satisfiesAll_of_findModel?
    {terms : List Term} {model : Valuation}
    (found : findModel? terms = some model) :
    model.SatisfiesAll terms := by
  have checked := List.find?_some found
  intro term member
  simpa using List.all_eq_true.mp checked term member

theorem not_satisfiable_of_findModel?
    {terms : List Term} (none : findModel? terms = none) :
    ¬ Satisfiable terms := by
  rintro ⟨valuation, satisfied⟩
  rcases exists_mem_enumerate valuation
      (terms.flatMap Term.constants).dedup with
    ⟨found, member, same⟩
  have refused := List.find?_eq_none.mp none found member
  apply refused
  rw [List.all_eq_true]
  intro term inside
  have equal : term.eval found = term.eval valuation := by
    apply term.eval_congr
    intro symbol constant
    exact same symbol (List.mem_dedup.mpr
      (List.mem_flatMap.mpr ⟨term, inside, constant⟩))
  rw [decide_eq_true_eq, Satisfies, equal]
  exact satisfied term inside

end Valuation

end FlowWitness.Smt

namespace FlowWitness.Solver

open FlowWitness.Smt

/-! ## The solver -/

/-- What was asserted in the session, and the model of the last check. -/
structure ExhaustiveSession where
  terms : List Term
  model : Option Valuation

/-- No session yet. -/
def ExhaustiveSession.none : ExhaustiveSession := ⟨[], Option.none⟩

/-- The solver that tries all valuations. -/
def exhaustive : Backend ExhaustiveSession where
  openSession _ := (.ok (), .none)
  assertTerm term session :=
    (.ok (), { session with terms := session.terms ++ [term] })
  checkSat session :=
    match Valuation.findModel? session.terms with
    | some model => (.ok .sat, { session with model := some model })
    | none => (.ok .unsat, { session with model := none })
  evaluate term session :=
    match session.model.bind term.eval with
    | some value => (.ok value.toModel, session)
    | none => (.error .noModel, session)
  closeSession session := (.ok (), session)

theorem terms_eq_of_inSession
    {terms : List Term} {session : ExhaustiveSession}
    (inside : InSession exhaustive terms session) :
    session.terms = terms := by
  induction inside with
  | opened answered =>
      simp only [exhaustive, Prod.mk.injEq, true_and] at answered
      rw [← answered]
      rfl
  | asserted _ answered induction =>
      simp only [exhaustive, Prod.mk.injEq, true_and] at answered
      rw [← answered, ← induction]

theorem eq_of_evaluating
    {start later : ExhaustiveSession}
    (evaluating : Evaluating exhaustive start later) :
    later = start := by
  induction evaluating with
  | started => rfl
  | evaluated _ answered induction =>
      simp only [exhaustive] at answered
      split at answered
      all_goals
        simp only [Prod.mk.injEq] at answered
        rw [← answered.2, induction]

/-- With a model, the solver has the values of the model. -/
theorem evaluate_of_model
    {session : ExhaustiveSession} {model : Valuation}
    (has : session.model = some model)
    {term : Term} {value : Value} (given : term.eval model = some value) :
    exhaustive.evaluate term session = (.ok value.toModel, session) := by
  simp [exhaustive, has, given]

theorem checkSat_exhaustive (session : ExhaustiveSession) :
    (∃ model, Valuation.findModel? session.terms = some model ∧
      exhaustive.checkSat session =
        (.ok .sat, { session with model := some model })) ∨
    (Valuation.findModel? session.terms = none ∧
      exhaustive.checkSat session =
        (.ok .unsat, { session with model := none })) := by
  cases found : Valuation.findModel? session.terms with
  | some model => exact Or.inl ⟨model, rfl, by simp [exhaustive, found]⟩
  | none => exact Or.inr ⟨rfl, by simp [exhaustive, found]⟩

/-- The exhaustive solver is exact. -/
theorem exact_exhaustive : Exact exhaustive where
  honest := by
    intro terms before after inside _ checked
    rcases checkSat_exhaustive before with ⟨model, found, same⟩ | ⟨_, same⟩
    · simp only [same, Prod.mk.injEq, true_and] at checked
      subst after
      rw [terms_eq_of_inSession inside] at found
      refine ⟨model, Valuation.satisfiesAll_of_findModel? found, ?_⟩
      intro later evaluating term reported after wellSorted answered
      rw [eq_of_evaluating evaluating] at answered
      rcases wellSorted.eval_eq_some model with ⟨value, given, _⟩
      rw [evaluate_of_model rfl given] at answered
      simp only [Prod.mk.injEq, Except.ok.injEq] at answered
      exact ⟨value, given, answered.1.symm⟩
    · simp [same] at checked
  sound := by
    intro terms before after inside _ checked
    rcases checkSat_exhaustive before with ⟨_, _, same⟩ | ⟨found, _⟩
    · simp [same] at checked
    · rw [terms_eq_of_inSession inside] at found
      exact Valuation.not_satisfiable_of_findModel? found
  opens before := ⟨_, rfl⟩
  asserts _ _ before _ _ := ⟨_, rfl⟩
  decides := by
    intro terms before _ _
    rcases checkSat_exhaustive before with ⟨model, _, same⟩ | ⟨_, same⟩
    · refine ⟨_, Or.inr ⟨same, ?_⟩⟩
      intro later evaluating term wellSorted
      rw [eq_of_evaluating evaluating]
      rcases wellSorted.eval_eq_some model with ⟨value, given, _⟩
      exact ⟨_, _, evaluate_of_model rfl given⟩
    · exact ⟨_, Or.inl same⟩
  closes before := ⟨_, rfl⟩

end FlowWitness.Solver
