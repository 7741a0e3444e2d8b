import FlowWitness.Proofs.Smt.WellSorted

/-!
# Signatures

The functions of the core and bit-vector theories of SMT-LIB by name, with the
sorts that they take and give, and what it is for one node of a term to obey
them.  A term can be built without regard to any of this.  In a well-sorted
term, every node obeys.
-/

namespace FlowWitness.Smt

/-- A theory declares a function of this name with these sorts. -/
inductive Declares : String → List SmtSort → SmtSort → Prop where
  | negation : Declares "not" [.bool] .bool
  | connective {name : String} (named : name ∈ ["and", "or", "=>"]) :
      Declares name [.bool, .bool] .bool
  | comparison {name : String} (named : name ∈ ["=", "distinct"])
      (sort : SmtSort) :
      Declares name [sort, sort] .bool
  | wordNegation {name : String} (named : name ∈ ["bvneg", "bvnot"])
      (width : Nat) :
      Declares name [.bitVec width] (.bitVec width)
  | wordArithmetic {name : String}
      (named : name ∈ ["bvadd", "bvsub", "bvmul", "bvudiv", "bvsdiv",
        "bvurem", "bvsrem", "bvand", "bvor", "bvxor", "bvshl", "bvlshr",
        "bvashr"]) (width : Nat) :
      Declares name [.bitVec width, .bitVec width] (.bitVec width)
  | wordComparison {name : String}
      (named : name ∈ ["bvult", "bvule", "bvugt", "bvuge", "bvslt", "bvsle",
        "bvsgt", "bvsge"]) (width : Nat) :
      Declares name [.bitVec width, .bitVec width] .bool

/-- A function that gives words takes words of their width. -/
theorem Declares.bitVec_mem
    {name : String} {arguments : List SmtSort} {width : Nat}
    (declared : Declares name arguments (.bitVec width)) :
    .bitVec width ∈ arguments := by
  cases declared with
  | wordNegation => exact List.mem_cons_self
  | wordArithmetic => exact List.mem_cons_self

theorem UnaryFunction.declares_of_accepts
    {function : UnaryFunction} {argument : SmtSort}
    (accepted : function.accepts argument = true) :
    Declares function.name [argument] (function.result argument) := by
  cases function with
  | not =>
      cases argument with
      | bool => exact .negation
      | _ => simp [accepts] at accepted
  | bvNeg | bvNot =>
      cases argument with
      | bitVec width => exact .wordNegation (by simp [name]) width
      | _ => simp [accepts] at accepted
  | _ => simp [accepts] at accepted

theorem BinaryFunction.declares_of_accepts
    {function : BinaryFunction} {first second : SmtSort}
    (accepted : function.accepts first second = true) :
    Declares function.name [first, second] (function.result first) := by
  cases function with
  | and | or | implies =>
      simp only [accepts, Bool.and_eq_true, beq_iff_eq] at accepted
      rcases accepted with ⟨rfl, rfl⟩
      exact .connective (by simp [name])
  | equal | distinct =>
      simp only [accepts, beq_iff_eq] at accepted
      subst second
      exact .comparison (by simp [name]) first
  | bvAdd | bvSub | bvMul | bvUdiv | bvSdiv | bvUrem | bvSrem | bvAnd | bvOr
  | bvXor | bvShl | bvLshr | bvAshr =>
      simp only [accepts, Bool.and_eq_true, beq_iff_eq] at accepted
      rcases accepted with ⟨vector, rfl⟩
      cases first with
      | bitVec width => exact .wordArithmetic (by simp [name]) width
      | _ => simp [SmtSort.width?] at vector
  | bvUlt | bvUle | bvUgt | bvUge | bvSlt | bvSle | bvSgt | bvSge =>
      simp only [accepts, Bool.and_eq_true, beq_iff_eq] at accepted
      rcases accepted with ⟨vector, rfl⟩
      cases first with
      | bitVec width => exact .wordComparison (by simp [name]) width
      | _ => simp [SmtSort.width?] at vector
  | _ => simp [accepts] at accepted

namespace Term

/-- The term and all its parts. -/
def subterms : Term → List Term
  | bool value => [bool value]
  | bitVec value width => [bitVec value width]
  | nullary symbol => [nullary symbol]
  | unary symbol argument => unary symbol argument :: argument.subterms
  | binary symbol first second =>
    binary symbol first second :: (first.subterms ++ second.subterms)
  | ternary symbol first second third =>
    ternary symbol first second third ::
      (first.subterms ++ (second.subterms ++ third.subterms))

/-- One node obeys the signatures, whatever its parts do. -/
structure Fits (node : Term) : Prop where
  literal : ∀ value width, node = .bitVec value width →
    value < wordCount width
  positive : ∀ width, node.sort = .bitVec width → 0 < width
  arity : ∀ symbol, node.function? = some symbol →
    symbol.arity = node.arguments.length
  sorts : ∀ symbol, node.function? = some symbol →
    symbol.argumentSorts = node.arguments.map Term.sort
  declared : ∀ symbol, node.function? = some symbol →
    symbol.isBuiltin = true →
    Declares symbol.name symbol.argumentSorts symbol.result

/-- The parts of a well-sorted term are well sorted. -/
theorem WellSorted.of_mem_subterms
    {term node : Term} (wellSorted : term.WellSorted)
    (part : node ∈ term.subterms) :
    node.WellSorted := by
  induction wellSorted with
  | bool value =>
      rw [List.mem_singleton.mp part]
      exact .bool value
  | bitVec positive below =>
      rw [List.mem_singleton.mp part]
      exact .bitVec positive below
  | constant name ground =>
      rw [List.mem_singleton.mp part]
      exact .constant name ground
  | applyUnary inner accepted induction =>
      rcases List.mem_cons.mp part with rfl | below
      · exact .applyUnary inner accepted
      · exact induction below
  | applyBinary left right accepted onLeft onRight =>
      rcases List.mem_cons.mp part with rfl | below
      · exact .applyBinary left right accepted
      · rcases List.mem_append.mp below with inFirst | inSecond
        · exact onLeft inFirst
        · exact onRight inSecond

/-- No well-sorted term is a word without bits. -/
theorem WellSorted.width_pos
    {term : Term} (wellSorted : term.WellSorted) {width : Nat}
    (sorted : term.sort = .bitVec width) :
    0 < width := by
  induction wellSorted with
  | bool value => simp [sort] at sorted
  | bitVec positive below =>
      simp only [sort, SmtSort.bitVec.injEq] at sorted
      rwa [← sorted]
  | constant name ground =>
      change _ = SmtSort.bitVec width at sorted
      subst sorted
      simpa [SmtSort.isGround] using ground
  | @applyUnary function argument inner accepted induction =>
      have declared := UnaryFunction.declares_of_accepts accepted
      change function.result argument.sort = .bitVec width at sorted
      rw [sorted] at declared
      have taken := declared.bitVec_mem
      rw [List.mem_singleton] at taken
      exact induction taken.symm
  | @applyBinary function first second _ _ accepted onLeft onRight =>
      have declared := BinaryFunction.declares_of_accepts accepted
      change function.result first.sort = .bitVec width at sorted
      rw [sorted] at declared
      rcases List.mem_cons.mp declared.bitVec_mem with taken | taken
      · exact onLeft taken.symm
      · exact onRight (List.mem_singleton.mp taken).symm

/-- An application fits if its symbol has the sorts of the arguments. -/
theorem Fits.of_function
    {node : Term} {symbol : FunctionSymbol}
    (applied : node.function? = some symbol)
    (sorts : symbol.argumentSorts = node.arguments.map Term.sort)
    (positive : ∀ width, node.sort = .bitVec width → 0 < width)
    (declared : symbol.isBuiltin = true →
      Declares symbol.name symbol.argumentSorts symbol.result) :
    node.Fits := by
  have only : ∀ other, node.function? = some other → other = symbol := by
    intro other same
    rw [applied, Option.some.injEq] at same
    exact same.symm
  constructor
  case literal =>
    rintro value width rfl
    simp [function?] at applied
  case positive => exact positive
  case arity =>
    intro other same
    rw [only other same, FunctionSymbol.arity, sorts, List.length_map]
  case sorts =>
    intro other same
    rw [only other same, sorts]
  case declared =>
    intro other same
    rw [only other same]
    exact declared

theorem WellSorted.fits
    {term : Term} (wellSorted : term.WellSorted) : term.Fits := by
  have positive : ∀ width, term.sort = .bitVec width → 0 < width :=
    fun _ => wellSorted.width_pos
  cases wellSorted with
  | bool value =>
      exact ⟨by simp, positive, by simp [function?], by simp [function?],
        by simp [function?]⟩
  | bitVec wide below =>
      refine ⟨?_, positive, by simp [function?], by simp [function?],
        by simp [function?]⟩
      rintro _ _ ⟨rfl, rfl⟩
      exact below
  | constant name ground =>
      exact .of_function rfl rfl positive (by
        simp [FunctionSymbol.isBuiltin, FunctionSymbol.constant])
  | applyUnary inner accepted =>
      exact .of_function rfl rfl positive
        (fun _ => UnaryFunction.declares_of_accepts accepted)
  | applyBinary left right accepted =>
      exact .of_function rfl rfl positive
        (fun _ => BinaryFunction.declares_of_accepts accepted)

/-- Every node of a well-sorted term obeys the signatures. -/
theorem WellSorted.fits_subterms
    {term : Term} (wellSorted : term.WellSorted) :
    ∀ node ∈ term.subterms, node.Fits :=
  fun _ part => (wellSorted.of_mem_subterms part).fits

end Term

end FlowWitness.Smt
