import FlowWitness.Proofs.Program.Evaluation

/-!
# Words as numbers

Computing with the numbers that words stand for and reducing the result to
the width is computing on the words themselves: the lemmas give the operation
on bit patterns for each operation on numbers, corner cases included.  Where
the two readings of a word differ, there is a lemma for each.
-/

namespace FlowWitness.Program

variable {width : Nat}

theorem ofInt_numberOf (signed : Bool) (bits : BitVec width) :
    BitVec.ofInt width (numberOf signed bits) = bits := by
  cases signed with
  | true => exact BitVec.ofInt_toInt
  | false =>
      change BitVec.ofInt width (bits.toNat : Int) = bits
      rw [BitVec.ofInt_natCast, BitVec.ofNat_toNat, BitVec.setWidth_eq]

/-- Words are the same if their numbers are. -/
theorem numberOf_beq (signed : Bool) (first second : BitVec width) :
    (numberOf signed first == numberOf signed second) = (first == second) := by
  rw [Bool.eq_iff_iff, beq_iff_eq, beq_iff_eq]
  constructor
  · intro equal
    rw [← ofInt_numberOf signed first, equal, ofInt_numberOf]
  · rintro rfl
    rfl

/-! ## Sums, differences and products -/

theorem ofInt_add_numberOf (signed : Bool) (first second : BitVec width) :
    BitVec.ofInt width (numberOf signed first + numberOf signed second) =
      first + second := by
  rw [BitVec.ofInt_add, ofInt_numberOf, ofInt_numberOf]

theorem ofInt_mul_numberOf (signed : Bool) (first second : BitVec width) :
    BitVec.ofInt width (numberOf signed first * numberOf signed second) =
      first * second := by
  rw [BitVec.ofInt_mul, ofInt_numberOf, ofInt_numberOf]

theorem ofInt_sub_numberOf (signed : Bool) (first second : BitVec width) :
    BitVec.ofInt width (numberOf signed first - numberOf signed second) =
      first - second := by
  rw [Int.sub_eq_add_neg, BitVec.ofInt_add, BitVec.ofInt_neg, ofInt_numberOf,
    ofInt_numberOf, BitVec.sub_eq_add_neg]

theorem ofInt_neg_toInt (bits : BitVec width) :
    BitVec.ofInt width (-bits.toInt) = -bits := by
  rw [BitVec.ofInt_neg, BitVec.ofInt_toInt]

/-! ## Quotients and remainders -/

theorem ofInt_neg_one : BitVec.ofInt width (-1) = BitVec.allOnes width := by
  rw [BitVec.ofInt_neg, BitVec.ofInt_ofNat, BitVec.neg_one_eq_allOnes]

theorem smtSDiv_of_ne_zero
    {first second : BitVec width} (nonzero : second ≠ .ofNat width 0) :
    first.smtSDiv second = first.sdiv second := by
  have negated : -second ≠ .ofNat width 0 := by simpa using nonzero
  rw [BitVec.smtSDiv_eq, BitVec.sdiv_eq]
  cases first.msb <;> cases second.msb <;>
    simp [BitVec.smtUDiv_eq, nonzero, negated]

theorem ofInt_quotient_toInt (first second : BitVec width) :
    BitVec.ofInt width (truncatedQuotient first.toInt second.toInt) =
      first.smtSDiv second := by
  unfold truncatedQuotient
  by_cases zero : second = .ofNat width 0
  · subst second
    rw [BitVec.smtSDiv_zero, BitVec.slt_eq_decide]
    by_cases negative : first.toInt < 0 <;> simp [negative, ofInt_neg_one]
  · have nonzero : second.toInt ≠ 0 := by
      intro equal
      exact zero (BitVec.eq_of_toInt_eq (by simpa using equal))
    rw [if_neg nonzero, smtSDiv_of_ne_zero zero]
    apply BitVec.eq_of_toInt_eq
    rw [BitVec.toInt_ofInt, BitVec.toInt_sdiv]

theorem ofInt_quotient_toNat (first second : BitVec width) :
    BitVec.ofInt width (truncatedQuotient first.toNat second.toNat) =
      first.smtUDiv second := by
  unfold truncatedQuotient
  by_cases zero : second = .ofNat width 0
  · subst second
    have nonnegative : ¬ (first.toNat : Int) < 0 := by omega
    simp [BitVec.smtUDiv_eq, nonnegative, ofInt_neg_one]
  · have nonzero : (second.toNat : Int) ≠ 0 := by
      intro equal
      exact zero (BitVec.eq_of_toNat_eq (by simpa using equal))
    rw [if_neg nonzero, BitVec.smtUDiv_eq, if_neg zero, ← Int.ofNat_tdiv,
      BitVec.ofInt_natCast, ← BitVec.toNat_udiv, BitVec.ofNat_toNat,
      BitVec.setWidth_eq]

theorem ofInt_remainder_toInt (first second : BitVec width) :
    BitVec.ofInt width (truncatedRemainder first.toInt second.toInt) =
      first.srem second := by
  have same : truncatedRemainder first.toInt second.toInt =
      (first.srem second).toInt := by
    rw [BitVec.toInt_srem]
    unfold truncatedRemainder
    split
    · next zero => rw [zero, Int.tmod_zero]
    · rfl
  rw [same, BitVec.ofInt_toInt]

theorem ofInt_remainder_toNat (first second : BitVec width) :
    BitVec.ofInt width (truncatedRemainder first.toNat second.toNat) =
      first.umod second := by
  have same : truncatedRemainder first.toNat second.toNat =
      ((first.umod second).toNat : Int) := by
    change _ = ((first % second).toNat : Int)
    rw [BitVec.toNat_umod]
    unfold truncatedRemainder
    split
    · next zero => simp [Int.natCast_eq_zero.mp zero]
    · exact (Int.ofNat_tmod ..).symm
  rw [same, BitVec.ofInt_natCast, BitVec.ofNat_toNat, BitVec.setWidth_eq]

/-! ## Shifts -/

theorem ofInt_wordCount (amount : Nat) :
    BitVec.ofInt width (wordCount amount : Int) =
      BitVec.twoPow width amount := by
  apply BitVec.eq_of_toNat_eq
  rw [BitVec.ofInt_natCast, BitVec.toNat_ofNat, BitVec.toNat_twoPow,
    wordCount, Nat.pow_eq]

theorem ofInt_shiftedUp (signed : Bool) (bits : BitVec width) (amount : Nat) :
    BitVec.ofInt width (shiftedUp width (numberOf signed bits) amount) =
      bits <<< amount := by
  unfold shiftedUp
  split
  · next saturated =>
      rw [BitVec.shiftLeft_eq_zero saturated]
      simp
  · rw [BitVec.ofInt_mul, ofInt_numberOf, ofInt_wordCount,
      BitVec.mul_twoPow_eq_shiftLeft]

theorem ofInt_shiftedDown_toInt (bits : BitVec width) (amount : Nat) :
    BitVec.ofInt width (shiftedDown width bits.toInt amount) =
      bits.sshiftRight amount := by
  have same : shiftedDown width bits.toInt amount = bits.toInt >>> amount := by
    rw [Int.shiftRight_eq_div_pow]
    unfold shiftedDown
    split
    · next saturated =>
        have upper := bits.two_mul_toInt_lt
        have lower := bits.le_two_mul_toInt
        have wider : (2 : Int) ^ width ≤ ((2 ^ amount : Nat) : Int) := by
          exact_mod_cast Nat.pow_le_pow_right (by decide) saturated
        have positive : (0 : Int) < ((2 ^ amount : Nat) : Int) := by
          exact_mod_cast Nat.two_pow_pos amount
        split
        · next negative =>
            have above : -1 ≤ bits.toInt / ((2 ^ amount : Nat) : Int) :=
              Int.le_ediv_of_mul_le positive (by omega)
            have below := Int.ediv_neg_of_neg_of_pos negative positive
            omega
        · next nonnegative =>
            exact (Int.ediv_eq_zero_of_lt (by omega) (by omega)).symm
    · rw [wordCount, Nat.pow_eq]
  rw [same]
  rfl

theorem ofInt_shiftedDown_toNat (bits : BitVec width) (amount : Nat) :
    BitVec.ofInt width (shiftedDown width bits.toNat amount) =
      bits >>> amount := by
  have same : shiftedDown width bits.toNat amount =
      ((bits >>> amount).toNat : Int) := by
    rw [BitVec.toNat_ushiftRight, Nat.shiftRight_eq_div_pow]
    unfold shiftedDown
    split
    · next saturated =>
        have small : bits.toNat < 2 ^ amount :=
          Nat.lt_of_lt_of_le bits.isLt
            (Nat.pow_le_pow_right (by decide) saturated)
        rw [Nat.div_eq_of_lt small]
        simp
    · simp [wordCount]
  rw [same, BitVec.ofInt_natCast, BitVec.ofNat_toNat, BitVec.setWidth_eq]

end FlowWitness.Program
