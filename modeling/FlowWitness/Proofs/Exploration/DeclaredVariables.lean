import FlowWitness.Proofs.Exploration.Naming
import FlowWitness.Proofs.Smt.SymbolText
import Mathlib.Data.List.Induction
import Mathlib.Data.List.Nodup

/-!
# The variables of an encoded expression

An expression lists its variables, and a term its declared symbols.  Either
walks through its tree and notes what it has not seen before: the expression
tells variables apart by their numbers, the term compares symbols as a whole.
What the walk lists is therefore the sequence of all occurrences without those
that repeat an earlier one.

Encoding keeps the sequence of occurrences, with each variable read as its
symbol at the current version.  Where the variables have numbers of their own,
two of them never share a symbol, so the occurrences that repeat an earlier
one are the same on either side, and so are the lists.
-/

namespace FlowWitness

/-! ## Sequences without repetitions -/

section

variable {α β : Type} [BEq α] [LawfulBEq α] [BEq β] [LawfulBEq β]

/-- An element at the end stays unless it is a repetition. -/
theorem eraseDups_concat (items : List α) (last : α) :
    (items ++ [last]).eraseDups =
      if last ∈ items then items.eraseDups else items.eraseDups ++ [last] := by
  rw [List.eraseDups_append]
  by_cases repeated : last ∈ items
  · simp [List.removeAll, repeated]
  · simp [List.removeAll, repeated, List.eraseDups_cons]

theorem nodup_eraseDups (items : List α) : items.eraseDups.Nodup := by
  induction items using List.reverseRecOn with
  | nil => exact List.nodup_nil
  | append_singleton items last induction =>
      rw [eraseDups_concat]
      split
      · exact induction
      · next new =>
          rw [← List.mem_eraseDups] at new
          rw [← List.concat_eq_append]
          exact List.Nodup.concat new induction

/-- Renaming the elements apart renames what is left of them. -/
theorem eraseDups_map
    {rename : α → β} {items : List α}
    (apart : ∀ first ∈ items, ∀ second ∈ items,
      rename first = rename second → first = second) :
    (items.map rename).eraseDups = items.eraseDups.map rename := by
  induction items using List.reverseRecOn with
  | nil => rfl
  | append_singleton items last induction =>
      have known : rename last ∈ items.map rename ↔ last ∈ items := by
        constructor
        · intro member
          obtain ⟨other, among, same⟩ := List.mem_map.mp member
          have equal := apart other (List.mem_append_left _ among) last
            (List.mem_append_right _ List.mem_cons_self) same
          exact equal ▸ among
        · exact List.mem_map_of_mem
      have earlier := induction (fun first firstMember second secondMember =>
        apart first (List.mem_append_left _ firstMember) second
          (List.mem_append_left _ secondMember))
      rw [List.map_append, List.map_singleton, eraseDups_concat,
        eraseDups_concat]
      simp only [known, earlier, apply_ite (List.map rename), List.map_append,
        List.map_singleton]

end

end FlowWitness

namespace FlowWitness.Program

/-! ## Variables of an expression -/

/-- Each of the variables has a number of its own. -/
def Variable.NumberedApart (targets : List Variable) : Prop :=
  ∀ first ∈ targets, ∀ second ∈ targets,
    first.same second = true → first = second

instance (targets : List Variable) :
    Decidable (Variable.NumberedApart targets) :=
  inferInstanceAs (Decidable (∀ first ∈ targets, ∀ second ∈ targets,
    first.same second = true → first = second))

namespace Expression

/-- What is collected after some occurrences are these and those of the expression. -/
theorem collectVariables_eraseDups
    {expression : Expression} (earlier : List Variable)
    (apart : Variable.NumberedApart (earlier ++ expression.mentioned)) :
    expression.collectVariables earlier.eraseDups =
      (earlier ++ expression.mentioned).eraseDups := by
  induction expression generalizing earlier with
  | var target =>
      have known : (earlier.eraseDups.any
          (fun other => other.same target)) = true ↔ target ∈ earlier := by
        simp only [List.any_eq_true, List.mem_eraseDups]
        constructor
        · rintro ⟨other, member, same⟩
          have equal := apart other (List.mem_append_left _ member) target
            (List.mem_append_right _ List.mem_cons_self) same
          exact equal ▸ member
        · exact fun member => ⟨target, member, beq_self_eq_true _⟩
      rw [collectVariables, mentioned, eraseDups_concat]
      simp only [known]
  | constant value => rw [collectVariables, mentioned, List.append_nil]
  | unary operator operand induction => exact induction earlier apart
  | binary operator left right onLeft onRight =>
      rw [mentioned, ← List.append_assoc] at apart
      have front : Variable.NumberedApart (earlier ++ left.mentioned) :=
        fun first firstMember second secondMember =>
          apart first (List.mem_append_left _ firstMember) second
            (List.mem_append_left _ secondMember)
      rw [collectVariables, onLeft earlier front, onRight _ apart, mentioned,
        List.append_assoc]

/-- An expression lists its variables by their first occurrences. -/
theorem allVariables_eq_eraseDups
    {expression : Expression}
    (apart : Variable.NumberedApart expression.mentioned) :
    expression.allVariables = expression.mentioned.eraseDups :=
  collectVariables_eraseDups [] apart

end Expression

end FlowWitness.Program

namespace FlowWitness.Smt.Term

/-! ## Symbols of a term -/

/-- The symbol alone if it is declared. -/
def ownDeclared (symbol : FunctionSymbol) : List FunctionSymbol :=
  if symbol.isBuiltin then [] else [symbol]

/--
The declared symbols of a term with repetition: that of an application before
those of its arguments, and these from left to right.
-/
def declaredSymbols : Term → List FunctionSymbol
  | bool _ => []
  | bitVec _ _ => []
  | nullary symbol => ownDeclared symbol
  | unary symbol argument => ownDeclared symbol ++ argument.declaredSymbols
  | binary symbol first second =>
    ownDeclared symbol ++ (first.declaredSymbols ++ second.declaredSymbols)
  | ternary symbol first second third =>
    ownDeclared symbol ++ (first.declaredSymbols ++
      (second.declaredSymbols ++ third.declaredSymbols))

theorem noteSymbol_eraseDups
    (symbol : FunctionSymbol) (earlier : List FunctionSymbol) :
    noteSymbol symbol earlier.eraseDups =
      (earlier ++ ownDeclared symbol).eraseDups := by
  rw [noteSymbol, ownDeclared]
  cases symbol.isBuiltin with
  | true => simp
  | false =>
      rw [if_neg Bool.false_ne_true, eraseDups_concat]
      simp

theorem collectDeclarations_eraseDups
    (term : Term) (earlier : List FunctionSymbol) :
    term.collectDeclarations earlier.eraseDups =
      (earlier ++ term.declaredSymbols).eraseDups := by
  induction term generalizing earlier with
  | bool value => rw [collectDeclarations, declaredSymbols, List.append_nil]
  | bitVec value width =>
      rw [collectDeclarations, declaredSymbols, List.append_nil]
  | nullary symbol => exact noteSymbol_eraseDups symbol earlier
  | unary symbol argument onArgument =>
      rw [collectDeclarations, noteSymbol_eraseDups, onArgument,
        declaredSymbols, List.append_assoc]
  | binary symbol first second onFirst onSecond =>
      rw [collectDeclarations, noteSymbol_eraseDups, onFirst, onSecond,
        declaredSymbols]
      simp only [List.append_assoc]
  | ternary symbol first second third onFirst onSecond onThird =>
      rw [collectDeclarations, noteSymbol_eraseDups, onFirst, onSecond, onThird,
        declaredSymbols]
      simp only [List.append_assoc]

/-- A term lists its declared symbols by their first occurrences. -/
theorem declarations_eq_eraseDups (term : Term) :
    term.declarations = term.declaredSymbols.eraseDups :=
  collectDeclarations_eraseDups term []

@[simp]
theorem declaredSymbols_applyUnary
    (function : UnaryFunction) (argument : Term) :
    (applyUnary function argument).declaredSymbols =
      argument.declaredSymbols :=
  rfl

@[simp]
theorem declaredSymbols_applyBinary
    (function : BinaryFunction) (first second : Term) :
    (applyBinary function first second).declaredSymbols =
      first.declaredSymbols ++ second.declaredSymbols :=
  rfl

end FlowWitness.Smt.Term

namespace FlowWitness.Exploration

open FlowWitness.Program
open FlowWitness.Smt

/-! ## Encoding keeps the occurrences -/

/-- The symbol that a variable is read as: that of its current version. -/
def currentSymbol? (versions : VersionMap) (target : Variable) :
    Option FunctionSymbol :=
  match keyOf target with
  | .ok key => (key.versioned (versions.get key)).function?
  | .error _ => none

theorem currentSymbol?_eq_some
    {versions : VersionMap} {target : Variable} {symbol : FunctionSymbol}
    (found : currentSymbol? versions target = some symbol) :
    ∃ key, keyOf target = .ok key ∧
      symbol = .constant (key.versionName (versions.get key)) key.sort := by
  unfold currentSymbol? at found
  split at found
  · next key keyed => exact ⟨key, keyed, (Option.some.inj found).symm⟩
  · cases found

/-- Variables with one symbol have one number. -/
theorem same_of_currentSymbol?_eq
    {versions : VersionMap} {first second : Variable} {symbol : FunctionSymbol}
    (ofFirst : currentSymbol? versions first = some symbol)
    (ofSecond : currentSymbol? versions second = some symbol) :
    first.same second = true := by
  obtain ⟨key, keyed, rfl⟩ := currentSymbol?_eq_some ofFirst
  obtain ⟨other, otherKeyed, same⟩ := currentSymbol?_eq_some ofSecond
  have names := (SymbolKey.versionName_injective
    (FunctionSymbol.mk.inj same).1).1
  rw [(keyOf_eq_ok keyed).1, (keyOf_eq_ok otherKeyed).1] at names
  exact beq_iff_eq.mpr (id_eq_of_stem_eq names)

theorem declaredSymbols_encodeConstant
    {value : Constant} {term : Term} (encoded : encodeConstant value = .ok term) :
    term.declaredSymbols = [] := by
  unfold encodeConstant at encoded
  split at encoded
  · cases encoded
    rfl
  · split at encoded
    · cases encoded
      rfl
    · cases encoded
    · cases encoded

theorem declaredSymbols_encodeUnary
    {whole : Expression} {operator : UnaryOperator} {operand term : Term}
    (encoded : encodeUnary whole operator operand = .ok term) :
    term.declaredSymbols = operand.declaredSymbols := by
  unfold encodeUnary at encoded
  split at encoded
  · cases encoded
    rfl
  · cases encoded

theorem declaredSymbols_encodeBinary
    {whole : Expression} {operator : BinaryOperator} {signed : Bool}
    {left right term : Term}
    (encoded : encodeBinary whole operator signed left right = .ok term) :
    term.declaredSymbols = left.declaredSymbols ++ right.declaredSymbols := by
  unfold encodeBinary at encoded
  split at encoded
  · split at encoded
    · cases encoded
      rfl
    · cases encoded
      rfl
    · split at encoded
      · cases encoded
        rfl
      · cases encoded
  · cases encoded

/-- The symbols of the term are those of the variables, in their order. -/
theorem declaredSymbols_encodeExpression
    {versions : VersionMap} {expression : Expression} {term : Term}
    (encoded : encodeExpression versions expression = .ok term) :
    term.declaredSymbols.map some =
      expression.mentioned.map (currentSymbol? versions) := by
  induction expression generalizing term with
  | var target =>
      rw [encodeExpression] at encoded
      split at encoded
      · next key keyed =>
          cases encoded
          rw [Expression.mentioned, List.map_singleton, currentSymbol?, keyed]
          rfl
      · cases encoded
  | constant value =>
      rw [declaredSymbols_encodeConstant encoded]
      rfl
  | unary operator operand induction =>
      rw [encodeExpression] at encoded
      split at encoded
      · next inner found =>
          rw [declaredSymbols_encodeUnary encoded]
          exact induction found
      · cases encoded
  | binary operator left right onLeft onRight =>
      rw [encodeExpression] at encoded
      split at encoded
      · cases encoded
      · next leftTerm leftFound =>
          split at encoded
          · cases encoded
          · next rightTerm rightFound =>
              rw [declaredSymbols_encodeBinary encoded, Expression.mentioned,
                List.map_append, List.map_append, onLeft leftFound,
                onRight rightFound]

/--
The declared symbols of an encoded expression are its variables, each read as
its symbol at its current version.  They are listed in the same order, that of
the first occurrences in the expression, and none is listed twice.
-/
theorem declarations_are_the_variables
    {versions : VersionMap} {expression : Expression} {term : Term}
    (apart : Variable.NumberedApart expression.mentioned)
    (encoded : encodeExpression versions expression = .ok term) :
    term.declarations.map some =
        expression.allVariables.map (currentSymbol? versions) ∧
      term.declarations.Nodup ∧
      expression.allVariables = expression.mentioned.eraseDups := by
  have occurrences := declaredSymbols_encodeExpression encoded
  have listed := Expression.allVariables_eq_eraseDups apart
  have distinct : ∀ first ∈ expression.mentioned,
      ∀ second ∈ expression.mentioned,
      currentSymbol? versions first = currentSymbol? versions second →
        first = second := by
    intro first firstMember second secondMember same
    have named := List.mem_map_of_mem (f := currentSymbol? versions) firstMember
    rw [← occurrences] at named
    obtain ⟨symbol, _, found⟩ := List.mem_map.mp named
    exact apart first firstMember second secondMember
      (same_of_currentSymbol?_eq found.symm (same ▸ found.symm))
  refine ⟨?_, ?_, listed⟩
  · calc
      term.declarations.map some
          = (term.declaredSymbols.map some).eraseDups := by
            rw [term.declarations_eq_eraseDups]
            exact (eraseDups_map (fun _ _ _ _ => Option.some.inj)).symm
      _ = (expression.mentioned.map (currentSymbol? versions)).eraseDups := by
            rw [occurrences]
      _ = expression.mentioned.eraseDups.map (currentSymbol? versions) :=
            eraseDups_map distinct
      _ = expression.allVariables.map (currentSymbol? versions) := by
            rw [listed]
  · rw [term.declarations_eq_eraseDups]
    exact nodup_eraseDups term.declaredSymbols

/-- A variable of eight bits. -/
def outerCount : Variable := ⟨4, "count", .integer false 8⟩

/-- Another variable with its name. -/
def innerCount : Variable := ⟨7, "count", .integer false 8⟩

/-- The second stands first, and both stand twice. -/
def shadowing : Expression :=
  .binary .less (.binary .subtract (.var innerCount) (.var outerCount))
    (.binary .add (.var outerCount) (.var innerCount))

/-- The second has been assigned to three times. -/
def shadowingVersions : VersionMap :=
  VersionMap.empty.insert ⟨"count!7", .bitVec 8⟩ 3

/-- Namesakes are declared apart, each once, and the second of them first. -/
theorem namesakes_declared_in_order :
    Variable.NumberedApart shadowing.mentioned ∧
      shadowing.allVariables = [innerCount, outerCount] ∧
      ∃ term, encodeExpression shadowingVersions shadowing = .ok term ∧
        term.declarations = [.constant "count!7@3" (.bitVec 8),
          .constant "count!4@0" (.bitVec 8)] := by
  have apart : Variable.NumberedApart shadowing.mentioned := by decide
  have encodes : (encodeExpression shadowingVersions
      shadowing).toOption.isSome := by decide
  refine ⟨apart, by decide, ?_⟩
  cases encoded : encodeExpression shadowingVersions shadowing with
  | error violation => simp [encoded, Except.toOption] at encodes
  | ok term =>
      have symbols : shadowing.allVariables.map
          (currentSymbol? shadowingVersions) =
            [FunctionSymbol.constant "count!7@3" (.bitVec 8),
              .constant "count!4@0" (.bitVec 8)].map some := by decide
      have listed := (declarations_are_the_variables apart encoded).1
      rw [symbols] at listed
      exact ⟨term, rfl, List.map_injective_iff.mpr
        (Option.some_injective _) listed⟩

end FlowWitness.Exploration
