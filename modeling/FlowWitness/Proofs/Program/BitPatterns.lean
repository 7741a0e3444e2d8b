import FlowWitness.Program.Constant
import Mathlib.Data.Int.ModEq

/-!
# Bit patterns and the constants they name

At every integer type of one to sixty-four bits, the patterns of its width
and the numbers in its range correspond: a pattern names the one number in
range that is congruent to it.  A constant whose number was written wider than
its type comes back from its pattern reduced to the range, and any other
constant as it was.

The number of a signed pattern can be found on machine words: the pattern is
moved to the top of a word and back down with its sign, and the word is cut to
the width of the widest integer.  Nothing is lost on the way.
-/

namespace FlowWitness

/-! ## Widths -/

theorem wordCount_pos (bits : Nat) : 0 < wordCount bits :=
  Nat.two_pow_pos bits

theorem wordCount_le {bits wider : Nat} (fits : bits ≤ wider) :
    wordCount bits ≤ wordCount wider :=
  Nat.pow_le_pow_right (by decide) fits

/-- Half of the words of a width have the top bit set. -/
theorem wordCount_eq_double {bits : Nat} (positive : 1 ≤ bits) :
    wordCount bits = 2 * wordCount (bits - 1) := by
  obtain ⟨fewer, rfl⟩ : ∃ fewer, bits = fewer + 1 := ⟨bits - 1, by omega⟩
  simp only [wordCount, Nat.pow_eq, Nat.add_sub_cancel]
  omega

/-- A wider word is a narrower one and what is above it. -/
theorem wordCount_mul_sub {bits wider : Nat} (fits : bits ≤ wider) :
    wordCount bits * wordCount (wider - bits) = wordCount wider := by
  simp only [wordCount, Nat.pow_eq, ← Nat.pow_add]
  congr 1
  omega

namespace Program

theorem patternCount_of_le
    {bits : Nat} (supported : bits ≤ maxIntegerBits) :
    patternCount bits = wordCount bits := by
  unfold patternCount
  rw [Nat.min_eq_left (Nat.le_trans supported (by decide))]

/-! ## Ranges -/

/-- The number is one of the integer type. -/
def DataType.Holds : DataType → Int → Prop
  | .integer true bits, number =>
    -(wordCount (bits - 1) : Int) ≤ number ∧ number < wordCount (bits - 1)
  | .integer false bits, number => 0 ≤ number ∧ number < wordCount bits
  | _, _ => False

/-- Two numbers of a type with the same pattern are the same. -/
theorem DataType.eq_of_holds
    {isSigned : Bool} {bits : Nat} (positive : 1 ≤ bits) {first second : Int}
    (firstHolds : (DataType.integer isSigned bits).Holds first)
    (secondHolds : (DataType.integer isSigned bits).Holds second)
    (congruent : first ≡ second [ZMOD wordCount bits]) :
    first = second := by
  have double := wordCount_eq_double positive
  have close : |second - first| < (wordCount bits : Int) := by
    rw [abs_lt]
    cases isSigned with
    | true =>
        simp only [Holds] at firstHolds secondHolds
        omega
    | false =>
        simp only [Holds] at firstHolds secondHolds
        omega
  have none := Int.eq_zero_of_abs_lt_dvd congruent.dvd close
  omega

namespace Constant

/--
The constant of an integer type whose number is in range and congruent to the
given one.
-/
structure Reduces (constant : Constant) (isSigned : Bool) (bits : Nat)
    (given : Int) : Prop where
  typed : constant.dataType = .integer isSigned bits
  reduced : ∃ number, constant.number? = some number ∧
    (DataType.integer isSigned bits).Holds number ∧
      number ≡ given [ZMOD wordCount bits]

/-- An integer constant is given by its type and its number. -/
theorem eq_of_number?
    {first second : Constant} {isSigned : Bool} {bits : Nat} {number : Int}
    (firstTyped : first.dataType = .integer isSigned bits)
    (secondTyped : second.dataType = .integer isSigned bits)
    (firstNumber : first.number? = some number)
    (secondNumber : second.number? = some number) :
    first = second := by
  have types := firstTyped.trans secondTyped.symm
  have numbers := firstNumber.trans secondNumber.symm
  cases first with
  | bool => simp [dataType] at firstTyped
  | signed value width =>
      cases second with
      | bool => simp [dataType] at types
      | unsigned => simp [dataType] at types
      | signed other same => simp_all [dataType, number?]
  | unsigned value width =>
      cases second with
      | bool => simp [dataType] at types
      | signed => simp [dataType] at types
      | unsigned other same =>
          simp only [number?, Option.some.injEq, Int.natCast_inj] at numbers
          simp_all [dataType]

theorem Reduces.congr
    {constant : Constant} {isSigned : Bool} {bits : Nat} {given other : Int}
    (reduces : constant.Reduces isSigned bits given)
    (congruent : given ≡ other [ZMOD wordCount bits]) :
    constant.Reduces isSigned bits other := by
  rcases reduces with ⟨typed, number, numbered, holds, same⟩
  exact ⟨typed, number, numbered, holds, same.trans congruent⟩

theorem Reduces.unique
    {first second : Constant} {isSigned : Bool} {bits : Nat} {given : Int}
    (positive : 1 ≤ bits) (firstReduces : first.Reduces isSigned bits given)
    (secondReduces : second.Reduces isSigned bits given) :
    first = second := by
  rcases firstReduces with ⟨firstTyped, number, firstNumber, holds, same⟩
  rcases secondReduces with
    ⟨secondTyped, other, secondNumber, otherHolds, otherSame⟩
  have equal : number = other :=
    DataType.eq_of_holds positive holds otherHolds (same.trans otherSame.symm)
  subst equal
  exact eq_of_number? firstTyped secondTyped firstNumber secondNumber

/-! ## Reading patterns -/

/-- A pattern names the constant in range that is congruent to it. -/
theorem exists_ofBits?
    (raw : Nat) (isSigned : Bool) {bits : Nat} (positive : 1 ≤ bits)
    (small : bits ≤ maxIntegerBits) :
    ∃ constant, ofBits? raw (.integer isSigned bits) = some constant ∧
      constant.Reduces isSigned bits raw := by
  have count := wordCount_pos bits
  cases isSigned with
  | true =>
      have double := wordCount_eq_double positive
      have above := Int.le_bmod (x := raw) count
      have below := Int.bmod_lt (x := raw) count
      refine ⟨signed (Int.bmod raw (wordCount bits)) bits, ?_, rfl, _, rfl, ?_, ?_⟩
      · simp [ofBits?, positive, small]
      · simp only [DataType.Holds]
        omega
      · exact Int.bmod_emod
  | false =>
      refine ⟨unsigned (raw % wordCount bits) bits, ?_, rfl, _, rfl, ?_, ?_⟩
      · simp [ofBits?, positive, small]
      · simp only [DataType.Holds]
        have cut := Nat.mod_lt raw count
        omega
      · rw [Int.natCast_mod]
        exact Int.mod_modEq _ _

/-! ## Writing patterns -/

/-- The pattern of a constant is its number, modulo the words of its width. -/
theorem natCast_toBits
    {constant : Constant} {isSigned : Bool} {bits : Nat} {number : Int}
    (typed : constant.dataType = .integer isSigned bits)
    (numbered : constant.number? = some number)
    (small : bits ≤ maxIntegerBits) :
    (constant.toBits : Int) = number % wordCount bits := by
  have count := patternCount_of_le small
  have positive := wordCount_pos bits
  cases constant with
  | bool => simp [dataType] at typed
  | signed value width =>
      simp only [dataType, DataType.integer.injEq, number?,
        Option.some.injEq] at typed numbered
      rw [toBits, typed.2, count, numbered, Int.toNat_of_nonneg]
      exact Int.emod_nonneg _ (by omega)
  | unsigned value width =>
      simp only [dataType, DataType.integer.injEq, number?,
        Option.some.injEq] at typed numbered
      rw [toBits, typed.2, count, ← numbered, Int.natCast_mod]

/-! ## On machine words -/

/-- The word with as many of its lower bits set as the width has. -/
def lowerBits (bits : Nat) : BitVec patternBits :=
  BitVec.ofNat patternBits 1 <<< bits - BitVec.ofNat patternBits 1

/-- The pattern moved to the top of its word and back down with its sign. -/
def signExtended (raw : BitVec patternBits) (bits : Nat) :
    BitVec patternBits :=
  ((raw &&& lowerBits bits) <<< (patternBits - bits)).sshiftRight
    (patternBits - bits)

/-- The constant that a pattern names, found on machine words. -/
def ofWord (raw : BitVec patternBits) (isSigned : Bool) (bits : Nat) :
    Constant :=
  if isSigned then
    signed ((signExtended raw bits).setWidth maxIntegerBits).toInt bits
  else
    unsigned ((raw &&& lowerBits bits).setWidth maxIntegerBits).toNat bits

theorem toNat_lowerBits {bits : Nat} (fits : bits ≤ patternBits) :
    (lowerBits bits).toNat = 2 ^ bits - 1 := by
  have some : 1 ≤ 2 ^ bits := Nat.one_le_two_pow
  have bound : 2 ^ bits ≤ 2 ^ patternBits :=
    Nat.pow_le_pow_right (by decide) fits
  have split : 2 ^ patternBits - 1 + 2 ^ bits =
      2 ^ patternBits + (2 ^ bits - 1) := by omega
  rw [lowerBits, BitVec.toNat_sub, BitVec.toNat_shiftLeft, BitVec.toNat_ofNat,
    Nat.shiftLeft_eq, show 1 % 2 ^ patternBits = 1 from rfl, Nat.one_mul,
    Nat.add_mod_mod, split, Nat.add_mod_left, Nat.mod_eq_of_lt (by omega)]

/-- The lower bits of a pattern are its remainder. -/
theorem toNat_and_lowerBits
    (raw : Nat) {bits : Nat} (fits : bits ≤ patternBits) :
    (BitVec.ofNat patternBits raw &&& lowerBits bits).toNat =
      raw % wordCount bits := by
  rw [BitVec.toNat_and, toNat_lowerBits fits, Nat.and_two_pow_sub_one_eq_mod,
    BitVec.toNat_ofNat, Nat.mod_mod_of_dvd _ (Nat.pow_dvd_pow 2 fits),
    wordCount, Nat.pow_eq]

/--
Moving a word up and back down with its sign leaves the signed number of its
lower bits.
-/
theorem toInt_moved
    (word : BitVec patternBits) {bits : Nat} (positive : 1 ≤ bits)
    (fits : bits ≤ patternBits) :
    (DataType.integer true bits).Holds
        ((word <<< (patternBits - bits)).sshiftRight (patternBits - bits)).toInt ∧
      ((word <<< (patternBits - bits)).sshiftRight (patternBits - bits)).toInt ≡
        word.toNat [ZMOD wordCount bits] := by
  generalize lifted : word <<< (patternBits - bits) = moved
  have above : -(wordCount (patternBits - 1) : Int) ≤ moved.toInt :=
    BitVec.le_toInt moved
  have below : moved.toInt < (wordCount (patternBits - 1) : Int) :=
    BitVec.toInt_lt
  have congruent : moved.toInt ≡
      word.toNat * wordCount (patternBits - bits) [ZMOD
        wordCount patternBits] := by
    rw [← lifted, BitVec.toInt_shiftLeft, Nat.shiftLeft_eq]
    exact Int.bmod_emod
  have whole := wordCount_mul_sub fits
  have half := wordCount_mul_sub (Nat.sub_le_sub_right fits 1)
  rw [show patternBits - 1 - (bits - 1) = patternBits - bits by omega] at half
  have room : (0 : Int) < wordCount (patternBits - bits) :=
    Int.natCast_pos.mpr (wordCount_pos _)
  have shifted : (moved.sshiftRight (patternBits - bits)).toInt =
      moved.toInt / (wordCount (patternBits - bits) : Int) := by
    rw [BitVec.toInt_sshiftRight, Int.shiftRight_eq_div_pow]
    rfl
  -- The moved word is a multiple of the room below it, and the number is the factor.
  rcases congruent.dvd with ⟨turns, difference⟩
  rw [← whole, Int.natCast_mul] at difference
  have multiple : moved.toInt =
      (word.toNat - wordCount bits * turns) *
        wordCount (patternBits - bits) := by
    rw [Int.sub_mul, Int.mul_right_comm, ← difference]
    omega
  rw [shifted, multiple, Int.mul_ediv_cancel _ (Int.ne_of_gt room)]
  rw [multiple, ← half, Int.natCast_mul] at above below
  constructor
  · rw [← Int.neg_mul] at above
    exact ⟨Int.le_of_mul_le_mul_right above room,
      Int.lt_of_mul_lt_mul_right below (Int.le_of_lt room)⟩
  · rw [Int.modEq_iff_dvd]
    exact ⟨turns, by omega⟩

/-- A word loses nothing when cut to a width that holds its number. -/
theorem toInt_setWidth_of_holds
    (word : BitVec patternBits)
    (holds : (DataType.integer true maxIntegerBits).Holds word.toInt) :
    (word.setWidth maxIntegerBits).toInt = word.toInt := by
  have whole : word.toInt ≡ word.toNat [ZMOD wordCount patternBits] := by
    rw [BitVec.toInt_eq_toNat_bmod]
    exact Int.bmod_emod
  have cut : (word.setWidth maxIntegerBits).toInt ≡
      word.toNat [ZMOD wordCount maxIntegerBits] := by
    rw [BitVec.toInt_setWidth]
    exact Int.bmod_emod
  have fewer : (wordCount maxIntegerBits : Int) ∣ wordCount patternBits :=
    Int.natCast_dvd_natCast.mpr (Nat.pow_dvd_pow 2 (by decide))
  have narrow : (DataType.integer true maxIntegerBits).Holds
      (word.setWidth maxIntegerBits).toInt :=
    ⟨BitVec.le_toInt _, BitVec.toInt_lt⟩
  exact DataType.eq_of_holds (by decide) narrow holds
    (cut.trans (whole.of_dvd fewer).symm)

/-- The constant found on machine words is the one in range. -/
theorem reduces_ofWord
    (raw : Nat) (isSigned : Bool) {bits : Nat} (positive : 1 ≤ bits)
    (small : bits ≤ maxIntegerBits) :
    (ofWord (BitVec.ofNat patternBits raw) isSigned bits).Reduces isSigned bits
      raw := by
  have fits : bits ≤ patternBits := Nat.le_trans small (by decide)
  have cut := toNat_and_lowerBits raw fits
  cases isSigned with
  | true =>
      rcases toInt_moved
        (BitVec.ofNat patternBits raw &&& lowerBits bits) positive fits with
        ⟨holds, congruent⟩
      have wider : wordCount (bits - 1) ≤ wordCount (maxIntegerBits - 1) :=
        wordCount_le (Nat.sub_le_sub_right small 1)
      have narrowed := toInt_setWidth_of_holds
        (signExtended (BitVec.ofNat patternBits raw) bits) (by
          simp only [signExtended, DataType.Holds] at holds ⊢
          omega)
      refine ⟨rfl, _, rfl, ?_, ?_⟩
      · rw [narrowed]
        exact holds
      · rw [narrowed]
        rw [cut, Int.natCast_mod] at congruent
        exact congruent.trans (Int.mod_modEq _ _)
  | false =>
      have below : raw % wordCount bits < 2 ^ maxIntegerBits :=
        Nat.lt_of_lt_of_le (Nat.mod_lt raw (wordCount_pos bits))
          (wordCount_le small)
      have narrowed : ((BitVec.ofNat patternBits raw &&&
          lowerBits bits).setWidth maxIntegerBits).toNat =
            raw % wordCount bits := by
        rw [BitVec.toNat_setWidth, cut, Nat.mod_eq_of_lt below]
      refine ⟨rfl, _, rfl, ?_, ?_⟩
      · have bound := Nat.mod_lt raw (wordCount_pos bits)
        simp only [narrowed, DataType.Holds]
        omega
      · rw [narrowed, Int.natCast_mod]
        exact Int.mod_modEq _ _

/-! ## Patterns and constants -/

/--
Patterns and constants of an integer type of one to sixty-four bits.  Each
pattern names one constant of the type, in range and congruent to it, with the
pattern's lower bits as its own, which is also what machine words give; and
each constant comes back from its pattern as the only one in range that is
congruent to it, and as itself exactly when it was in range.
-/
theorem patterns_name_constants_in_range
    (isSigned : Bool) {bits : Nat} (positive : 1 ≤ bits) (small : bits ≤ 64) :
    (∀ raw, ∃ constant,
      ofBits? raw (.integer isSigned bits) = some constant ∧
        constant.Reduces isSigned bits raw ∧
        constant.toBits = raw % wordCount bits ∧
        constant = ofWord (BitVec.ofNat patternBits raw) isSigned bits) ∧
    ∀ constant number, constant.dataType = .integer isSigned bits →
      constant.number? = some number →
      ∃ back, ofBits? constant.toBits constant.dataType = some back ∧
        (∀ other, other.Reduces isSigned bits number ↔ other = back) ∧
        (back = constant ↔ (DataType.integer isSigned bits).Holds number) := by
  constructor
  · intro raw
    rcases exists_ofBits? raw isSigned positive small with
      ⟨constant, named, reduces⟩
    have onWords := reduces_ofWord raw isSigned positive small
    refine ⟨constant, named, reduces, ?_, reduces.unique positive onWords⟩
    rcases reduces with ⟨typed, number, numbered, _, congruent⟩
    have pattern := natCast_toBits typed numbered small
    rw [congruent] at pattern
    exact_mod_cast pattern
  · intro constant number typed numbered
    rcases exists_ofBits? constant.toBits isSigned positive small with
      ⟨back, named, reduces⟩
    have congruent : (constant.toBits : Int) ≡ number [ZMOD wordCount bits] := by
      rw [natCast_toBits typed numbered small]
      exact Int.mod_modEq _ _
    have reduced := reduces.congr congruent
    refine ⟨back, by rw [typed, named], ?_, ?_⟩
    · intro other
      constructor
      · exact fun otherReduces => otherReduces.unique positive reduced
      · rintro rfl
        exact reduced
    · constructor
      · rintro rfl
        rcases reduced with ⟨_, found, foundNumber, holds, _⟩
        rw [numbered, Option.some.injEq] at foundNumber
        rw [foundNumber]
        exact holds
      · intro holds
        exact reduced.unique positive ⟨typed, number, numbered, holds, rfl⟩

/-- A byte written as 128 comes back as the least number of its type. -/
theorem wide_byte_comes_back_in_range :
    ofBits? (signed 128 8).toBits (.integer true 8) = some (signed (-128) 8) ∧
      ∀ other, Reduces other true 8 128 ↔ other = signed (-128) 8 := by
  have back : ofBits? (signed 128 8).toBits (.integer true 8) =
      some (signed (-128) 8) := by decide
  rcases (patterns_name_constants_in_range true (by decide : 1 ≤ 8)
    (by decide)).2 (signed 128 8) 128 rfl rfl with ⟨found, named, only, _⟩
  rw [dataType, back, Option.some.injEq] at named
  rw [← named] at only
  exact ⟨back, only⟩

end Constant

end Program

end FlowWitness
