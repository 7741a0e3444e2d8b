import FlowWitness.Program.Typed
import FlowWitness.Proofs.Exploration.Typing

/-!
# Typed builders

The calls that make typed expressions, nested in any way.  A script of such
calls makes either a condition or a number; where its variables and its
constants of a declared width have one width between them, it can only be of
one piece: a bare number beside a number adopts the type of that number, which
is inferred from however deep an expression, and has that width again.

So nothing remains for encoding to refuse.  Every condition is encoded as a
truth value and every number as a word of the common width, over any versions.
-/

namespace FlowWitness.Program

open FlowWitness.Smt

/-! ## Bare numbers -/

/-- A bare number becomes the constant of the type that is congruent to it. -/
theorem IntExpr.adopt_reduces
    (value : Int) (isSigned : Bool) {bits : Nat} (positive : 1 ≤ bits)
    (small : bits ≤ maxIntegerBits) :
    (adopt value (.integer isSigned bits)).Reduces isSigned bits value := by
  have patterns := Int.natCast_pos.mpr (wordCount_pos patternBits)
  obtain ⟨constant, named, reduces⟩ := Constant.exists_ofBits?
    (value % (wordCount patternBits : Int)).toNat isSigned positive small
  have adopted : adopt value (.integer isSigned bits) = constant := by
    simp only [adopt, named]
    cases constant with
    | bool truth => cases reduces.typed
    | signed number width => rfl
    | unsigned number width => rfl
  have fewer : (wordCount bits : Int) ∣ wordCount patternBits :=
    Int.natCast_dvd_natCast.mpr
      (Nat.pow_dvd_pow 2 (Nat.le_trans small (by decide)))
  rw [adopted]
  refine reduces.congr ?_
  rw [Int.toNat_of_nonneg (Int.emod_nonneg _ (Int.ne_of_gt patterns))]
  exact (Int.mod_modEq value _).of_dvd fewer

/-! ## Scripts -/

/-- The kinds of what a script makes: an operand may be bare. -/
inductive TypedKind where
  | condition
  | number
  | operand
  deriving DecidableEq, Repr

/-- What is made of a kind. -/
abbrev TypedKind.Value : TypedKind → Type
  | condition => BoolExpr
  | number => IntExpr
  | operand => IntOperand

/-- The operators that join two conditions. -/
def BoolExpr.joining : List BinaryOperator := [.and, .or, .equal, .notEqual]

/-- The operators that make a number from two. -/
def IntExpr.calculating : List BinaryOperator := [.add, .subtract, .multiply]

/-- The operators that compare two numbers. -/
def IntExpr.comparing : List BinaryOperator :=
  [.equal, .notEqual, .less, .lessOrEqual, .greater, .greaterOrEqual]

/--
The calls that make a typed expression, where the variables that stand for
numbers and the constants of a declared width have the given width.
-/
inductive TypedScript (width : Nat) : TypedKind → Type where
  | boolVar (target : Variable) (boolean : target.dataType = .boolean) :
      TypedScript width .condition
  | boolLiteral (value : Bool) : TypedScript width .condition
  | not (operand : TypedScript width .condition) : TypedScript width .condition
  | join (operator : BinaryOperator) (offered : operator ∈ BoolExpr.joining)
      (left right : TypedScript width .condition) :
      TypedScript width .condition
  | compare (operator : BinaryOperator)
      (offered : operator ∈ IntExpr.comparing)
      (left : TypedScript width .number)
      (right : TypedScript width .operand) : TypedScript width .condition
  | intVar (target : Variable) (wide : target.dataType.bits? = some width) :
      TypedScript width .number
  | signed (value : Int) : TypedScript width .number
  | unsigned (value : Nat) : TypedScript width .number
  | literal (beside : TypedScript width .number) (value : Int) :
      TypedScript width .number
  | negate (operand : TypedScript width .number) : TypedScript width .number
  | calculate (operator : BinaryOperator)
      (offered : operator ∈ IntExpr.calculating)
      (left : TypedScript width .number)
      (right : TypedScript width .operand) : TypedScript width .number
  | number (operand : TypedScript width .number) : TypedScript width .operand
  | bare (value : Int) : TypedScript width .operand

/-- What the calls make. -/
def TypedScript.made {width : Nat} :
    {kind : TypedKind} → TypedScript width kind → kind.Value
  | _, boolVar target _ => BoolExpr.var target
  | _, boolLiteral value => BoolExpr.literal value
  | _, not operand => BoolExpr.negation operand.made
  | _, join operator _ left right =>
    BoolExpr.combine operator left.made right.made
  | _, compare operator _ left right =>
    IntExpr.compare operator left.made right.made
  | _, intVar target _ => IntExpr.var target
  | _, signed value => IntExpr.signed value width
  | _, unsigned value => IntExpr.unsigned value width
  | _, literal beside value => IntExpr.literal beside.made value
  | _, negate operand => IntExpr.negation operand.made
  | _, calculate operator _ left right =>
    IntExpr.arithmetic operator left.made right.made
  | _, number operand => IntOperand.number operand.made
  | _, bare value => IntOperand.bare value

/-! ## Sorts of what is made -/

/--
What is made has the sort of its kind by the typing rules, an operand beside
whatever number it may stand.
-/
def TypedKind.Sorted (width : Nat) : (kind : TypedKind) → kind.Value → Prop
  | condition, value => value.expression.HasSort .bool
  | number, value => value.expression.HasSort (.bitVec width)
  | operand, value => ∀ left : IntExpr,
      left.expression.HasSort (.bitVec width) →
        (value.beside left).expression.HasSort (.bitVec width)

theorem gives_of_mem_joining
    {operator : BinaryOperator} (offered : operator ∈ BoolExpr.joining) :
    operator.Gives .bool .bool := by
  simp only [BoolExpr.joining, List.mem_cons, List.not_mem_nil, or_false]
    at offered
  rcases offered with rfl | rfl | rfl | rfl
  · exact .connective (by simp)
  · exact .connective (by simp)
  · exact .comparison (by simp) _
  · exact .comparison (by simp) _

theorem gives_of_mem_calculating
    {operator : BinaryOperator} (offered : operator ∈ IntExpr.calculating)
    (width : Nat) :
    operator.Gives (.bitVec width) (.bitVec width) := by
  refine .arithmetic ?_ width
  simp only [IntExpr.calculating, List.mem_cons, List.not_mem_nil, or_false]
    at offered
  rcases offered with rfl | rfl | rfl <;> simp

theorem gives_of_mem_comparing
    {operator : BinaryOperator} (offered : operator ∈ IntExpr.comparing)
    (width : Nat) :
    operator.Gives (.bitVec width) .bool := by
  simp only [IntExpr.comparing, List.mem_cons, List.not_mem_nil, or_false]
    at offered
  rcases offered with rfl | rfl | rfl | rfl | rfl | rfl
  · exact .comparison (by simp) _
  · exact .comparison (by simp) _
  all_goals exact .ordering (by simp) width

/-- A number of the width is of an integer type of that width. -/
theorem IntExpr.exists_dataType
    {number : IntExpr} {width : Nat}
    (sorted : number.expression.HasSort (.bitVec width)) :
    ∃ isSigned, number.dataType = .integer isSigned width := by
  have typed : number.dataType.HasSort (.bitVec width) := sorted.dataType
  generalize number.dataType = dataType at typed
  cases typed with
  | integer isSigned => exact ⟨isSigned, rfl⟩

/-- A bare number beside a number is a constant of its type, congruent to it. -/
theorem IntExpr.literal_reduces
    {number : IntExpr} {width : Nat} (positive : 1 ≤ width)
    (narrow : width ≤ 64)
    (sorted : number.expression.HasSort (.bitVec width)) (value : Int) :
    ∃ constant isSigned, number.literal value = ⟨.constant constant⟩ ∧
      number.dataType = .integer isSigned width ∧
      constant.Reduces isSigned width value := by
  obtain ⟨isSigned, typed⟩ := exists_dataType sorted
  refine ⟨_, isSigned, rfl, typed, ?_⟩
  rw [typed]
  exact adopt_reduces value isSigned positive narrow

theorem IntExpr.hasSort_literal
    {number : IntExpr} {width : Nat} (positive : 1 ≤ width)
    (narrow : width ≤ 64)
    (sorted : number.expression.HasSort (.bitVec width)) (value : Int) :
    (number.literal value).expression.HasSort (.bitVec width) := by
  obtain ⟨constant, isSigned, made, _, reduces⟩ :=
    literal_reduces positive narrow sorted value
  rw [made]
  refine .constant ?_
  rw [reduces.typed]
  exact .integer isSigned positive narrow

/-- Whatever a script makes has the sort of its kind by the typing rules. -/
theorem TypedScript.sorted_made
    {width : Nat} (positive : 1 ≤ width) (narrow : width ≤ 64)
    {kind : TypedKind} (script : TypedScript width kind) :
    kind.Sorted width script.made := by
  have ofWidth : ∀ isSigned,
      (DataType.integer isSigned width).HasSort (.bitVec width) :=
    fun isSigned => .integer isSigned positive narrow
  induction script with
  | boolVar target boolean => exact .var (boolean ▸ .boolean)
  | boolLiteral value => exact .constant .boolean
  | not operand induction => exact .unary induction .not
  | join operator offered left right onLeft onRight =>
      exact .binary onLeft onRight (gives_of_mem_joining offered)
  | compare operator offered left right onLeft onRight =>
      exact .binary onLeft (onRight _ onLeft)
        (gives_of_mem_comparing offered width)
  | intVar target wide =>
      cases shape : target.dataType with
      | integer isSigned bits =>
          rw [shape] at wide
          cases wide
          exact .var (shape ▸ ofWidth isSigned)
      | _ => simp [shape, DataType.bits?] at wide
  | signed value => exact .constant (ofWidth true)
  | unsigned value => exact .constant (ofWidth false)
  | literal beside value induction =>
      exact IntExpr.hasSort_literal positive narrow induction value
  | negate operand induction => exact .unary induction (.negate width)
  | calculate operator offered left right onLeft onRight =>
      exact .binary onLeft (onRight _ onLeft)
        (gives_of_mem_calculating offered width)
  | number operand induction => exact fun _ _ => induction
  | bare value =>
      exact fun _ sorted =>
        IntExpr.hasSort_literal positive narrow sorted value

end FlowWitness.Program

namespace FlowWitness.Exploration

open FlowWitness.Program
open FlowWitness.Smt

/--
Scripts whose variables and declared constants have one width of one to
sixty-four bits are encoded over any versions: those of conditions as truth
values, those of numbers as words of that width.  A bare number beside a
number becomes the constant of its inferred type that is congruent to it, and
so does a bare right operand, whatever operator joins it to the number.
-/
theorem typed_scripts_are_encoded
    {width : Nat} (positive : 1 ≤ width) (narrow : width ≤ 64) :
    (∀ (script : TypedScript width .condition) (versions : VersionMap),
      ∃ term, encodeExpression versions script.made.expression = .ok term ∧
        term.sort = .bool) ∧
    (∀ (script : TypedScript width .number) (versions : VersionMap),
      ∃ term, encodeExpression versions script.made.expression = .ok term ∧
        term.sort = .bitVec width) ∧
    ∀ (left : TypedScript width .number) (value : Int),
      ∃ constant isSigned,
        (TypedScript.literal left value).made = ⟨.constant constant⟩ ∧
        (∀ operator offered,
          (TypedScript.compare operator offered left (.bare value)).made =
            ⟨.binary operator left.made.expression (.constant constant)⟩) ∧
        (∀ operator offered,
          (TypedScript.calculate operator offered left (.bare value)).made =
            ⟨.binary operator left.made.expression (.constant constant)⟩) ∧
        IntExpr.dataType left.made = .integer isSigned width ∧
        constant.Reduces isSigned width value := by
  refine ⟨?_, ?_, ?_⟩
  · intro script versions
    exact exists_encodeExpression (script.sorted_made positive narrow) versions
  · intro script versions
    exact exists_encodeExpression (script.sorted_made positive narrow) versions
  · intro left value
    obtain ⟨constant, isSigned, made, typed, reduces⟩ :=
      IntExpr.literal_reduces positive narrow
        (left.sorted_made positive narrow) value
    have adopted : (IntOperand.bare value).beside left.made =
        ⟨.constant constant⟩ := made
    refine ⟨constant, isSigned, made, fun operator offered => ?_,
      fun operator offered => ?_, typed, reduces⟩
    · rw [TypedScript.made, TypedScript.made, IntExpr.compare, adopted]
    · rw [TypedScript.made, TypedScript.made, IntExpr.arithmetic, adopted]

/-- A sum of a number without a sign and a bare one that is too wide for it. -/
def raisedLevel : TypedScript 8 .number :=
  .calculate .add (by decide) (.intVar level rfl) (.bare 300)

/-- It is compared with a number with a sign: `!(level + 300 < -offset)`. -/
def notBelowOffset : TypedScript 8 .condition :=
  .not (.compare .less (by decide) raisedLevel
    (.number (.negate (.intVar offset rfl))))

/-- The bare number is cut to its eight bits, and the condition is encoded. -/
theorem notBelowOffset_is_encoded :
    (∃ term, encodeExpression .empty notBelowOffset.made.expression = .ok term ∧
      term.sort = .bool) ∧
    raisedLevel.made =
      ⟨.binary .add (.var level) (.constant (.unsigned 44 8))⟩ ∧
    (Constant.unsigned 44 8).Reduces false 8 300 := by
  obtain ⟨conditions, _, literals⟩ :=
    typed_scripts_are_encoded (by decide : 1 ≤ 8) (by decide : 8 ≤ 64)
  obtain ⟨constant, isSigned, literal, _, made, typed, reduces⟩ :=
    literals (.intVar level rfl) 300
  have cut : IntExpr.literal (.var level) 300 =
      ⟨.constant (.unsigned 44 8)⟩ := by decide
  have own : IntExpr.dataType (IntExpr.var level) = .integer false 8 := by
    decide
  replace literal := cut.symm.trans literal
  rw [IntExpr.mk.injEq, Expression.constant.injEq] at literal
  rw [← literal] at made reduces
  cases own.symm.trans typed
  exact ⟨conditions notBelowOffset .empty, made .add (by decide), reduces⟩

end FlowWitness.Exploration
