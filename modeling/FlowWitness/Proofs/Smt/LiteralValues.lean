import FlowWitness.Proofs.Program.BitPatterns
import FlowWitness.Proofs.Smt.Legibility
import FlowWitness.Smt.ValueReader

/-!
# Literals and their values

A literal that is written for a solver is decoded as the value it stands for,
and so is every spelling of a bit-vector that a solver may choose: one binary
digit for each bit, one hexadecimal digit of either case for each four, or the
number and the width.

The digits of a number are the same to every reader of numerals, padded with
zeros or not, so what is left to show of each spelling is that its reader
looks at all of the digits, and at nothing else.
-/

namespace FlowWitness

/-! ## Digits -/

namespace Text

theorem digitValue?_digitChar {digit : Nat} (small : digit < 16) :
    digitValue? (Nat.digitChar digit) = some digit := by
  have each : ∀ digit < 16,
      digitValue? (Nat.digitChar digit) = some digit := by decide
  exact each digit small

theorem radixDigit?_digitChar
    {radix digit : Nat} (known : radix ≤ 16) (small : digit < radix) :
    radixDigit? radix (Nat.digitChar digit) = some digit := by
  rw [radixDigit?, digitValue?_digitChar (Nat.lt_of_lt_of_le small known)]
  simp [small]

theorem readDigitsFrom_append
    (radix value : Nat) (front back : List Char) :
    readDigitsFrom radix value (front ++ back) =
      (readDigitsFrom radix value front).bind (fun reached =>
        readDigitsFrom radix reached back) := by
  induction front generalizing value with
  | nil => rfl
  | cons character rest induction =>
      rw [List.cons_append, readDigitsFrom, readDigitsFrom]
      cases radixDigit? radix character with
      | none => rfl
      | some digit => exact induction _

theorem readDigitsFrom_zeros
    {radix : Nat} (positive : 0 < radix) (count : Nat) (rest : List Char) :
    readDigitsFrom radix 0 (List.replicate count '0' ++ rest) =
      readDigitsFrom radix 0 rest := by
  have zero : radixDigit? radix '0' = some 0 := by
    simp [radixDigit?, positive, show digitValue? '0' = some 0 from rfl]
  induction count with
  | zero => rfl
  | succ fewer induction =>
      rw [List.replicate_succ, List.cons_append, readDigitsFrom, zero]
      simpa using induction

/-- The digits of a number are read as the number. -/
theorem readDigitsFrom_toDigits
    {radix : Nat} (large : 1 < radix) (known : radix ≤ 16) (number : Nat) :
    readDigitsFrom radix 0 (Nat.toDigits radix number) = some number := by
  -- All digits but the last are those of the quotient.
  induction number using Nat.strongRecOn with
  | ind number induction =>
      rcases Nat.lt_or_ge number radix with small | big
      · rw [Nat.toDigits_of_lt_base small, readDigitsFrom,
          radixDigit?_digitChar known small]
        simp [readDigitsFrom]
      · have last : number % radix < radix := Nat.mod_lt _ (by omega)
        have fewer : number / radix < number :=
          Nat.div_lt_self (by omega) large
        rw [Nat.toDigits_of_base_le large big, readDigitsFrom_append,
          induction _ fewer, Option.bind_some, readDigitsFrom,
          radixDigit?_digitChar known last]
        simp [readDigitsFrom, Nat.div_add_mod']

/-- The number in a radix, with zeros in front up to a number of digits. -/
def padded (radix count number : Nat) : List Char :=
  (Nat.toDigits radix number).leftpad count '0'

theorem length_padded
    {radix count number : Nat} (large : 1 < radix) (positive : 0 < count)
    (fits : number < Nat.pow radix count) :
    (padded radix count number).length = count := by
  rw [padded, List.length_leftpad]
  exact Nat.max_eq_left ((Nat.length_toDigits_le_iff large positive).mpr fits)

theorem toNat_toLower
    {character : Char} (least : 65 ≤ character.toNat)
    (greatest : character.toNat ≤ 90) :
    character.toLower.toNat = character.toNat + 32 := by
  have upper : 'A'.val ≤ character.val ∧ character.val ≤ 'Z'.val :=
    ⟨UInt32.le_iff_toNat_le.mpr least, UInt32.le_iff_toNat_le.mpr greatest⟩
  delta Char.toLower
  rw [dif_pos upper]
  change (character.val + ('a'.val - 'A'.val)).toNat = _
  rw [UInt32.toNat_add, Nat.mod_eq_of_lt]
  · rfl
  · change character.toNat + 32 < 2 ^ 32
    omega

/-- A digit has the same value in either case. -/
theorem digitValue?_toLower (character : Char) :
    digitValue? character.toLower = digitValue? character := by
  by_cases upper : 65 ≤ character.toNat ∧ character.toNat ≤ 90
  · simp only [digitValue?, toNat_toLower upper.1 upper.2, Bool.and_eq_true,
      decide_eq_true_eq]
    rcases Nat.lt_or_ge character.toNat 71 with digit | letter
    · rw [if_neg (by omega), if_pos (by omega), if_neg (by omega),
        if_neg (by omega), if_pos (by omega)]
      exact congrArg some (by omega)
    · rw [if_neg (by omega), if_neg (by omega), if_neg (by omega),
        if_neg (by omega), if_neg (by omega), if_neg (by omega)]
  · delta Char.toLower
    rw [dif_neg]
    intro between
    exact upper ⟨UInt32.le_iff_toNat_le.mp between.1,
      UInt32.le_iff_toNat_le.mp between.2⟩

theorem readDigitsFrom_map_toLower
    (radix value : Nat) (digits : List Char) :
    readDigitsFrom radix value (digits.map Char.toLower) =
      readDigitsFrom radix value digits := by
  induction digits generalizing value with
  | nil => rfl
  | cons character rest induction =>
      rw [List.map_cons, readDigitsFrom, readDigitsFrom, radixDigit?,
        radixDigit?, digitValue?_toLower]
      split
      · exact induction _
      · rfl

/-! ## Numerals -/

/-- Whoever reads a numeral sees nothing but digits. -/
theorem alphanumeric_of_readDigitsFrom
    {radix value number : Nat} {digits : List Char}
    (read : readDigitsFrom radix value digits = some number) :
    ∀ digit ∈ digits, (48 ≤ digit.toNat ∧ digit.toNat ≤ 57) ∨
      (65 ≤ digit.toNat ∧ digit.toNat ≤ 90) ∨
      (97 ≤ digit.toNat ∧ digit.toNat ≤ 122) := by
  induction digits generalizing value with
  | nil => simp
  | cons character rest induction =>
      rw [readDigitsFrom] at read
      cases found : radixDigit? radix character with
      | none => simp [found] at read
      | some digit =>
          rw [found] at read
          rw [List.forall_mem_cons]
          refine ⟨?_, induction read⟩
          rw [radixDigit?, Option.filter_eq_some_iff] at found
          have known := found.1
          simp only [digitValue?, Bool.and_eq_true, decide_eq_true_eq] at known
          split at known
          · next range => exact Or.inl range
          split at known
          · next range => exact Or.inr (Or.inr (by omega))
          split at known
          · next range => exact Or.inr (Or.inl (by omega))
          · cases known

theorem readDigits_eq_some_iff
    {radix number : Nat} {digits : List Char} :
    readDigits radix digits = some number ↔
      digits ≠ [] ∧ readDigitsFrom radix 0 digits = some number := by
  cases digits <;> simp [readDigits]

theorem head_ne_of_readDigits
    {radix number : Nat} {first : Char} {rest digits : List Char}
    (read : readDigits radix digits = some number)
    (sign : digitValue? first = none) : digits ≠ first :: rest := by
  rintro rfl
  simp [readDigits, readDigitsFrom, radixDigit?, sign] at read

/-- A numeral without a sign is read as its digits are. -/
theorem readUnsigned_of_readDigits
    {radix bound number : Nat} {digits : List Char}
    (read : readDigits radix digits = some number) (small : number < bound) :
    readUnsigned radix bound digits = some number := by
  unfold readUnsigned
  split
  · exact absurd rfl (head_ne_of_readDigits read rfl)
  · simp [read, small]

theorem readSigned_of_readDigits
    {radix bound number : Nat} {digits : List Char}
    (read : readDigits radix digits = some number) (small : number < bound) :
    readSigned radix bound digits = some (number : Int) := by
  unfold readSigned
  split
  · exact absurd rfl (head_ne_of_readDigits read rfl)
  · rw [readUnsigned_of_readDigits read small]
    rfl

theorem readDigits_padded
    {radix : Nat} (large : 1 < radix) (known : radix ≤ 16)
    (count number : Nat) :
    readDigits radix (padded radix count number) = some number := by
  rw [readDigits_eq_some_iff, padded, List.leftpad,
    readDigitsFrom_zeros (by omega), readDigitsFrom_toDigits large known]
  simp [Nat.toDigits_ne_nil]

theorem readDigits_map_toLower (radix : Nat) (digits : List Char) :
    readDigits radix (digits.map Char.toLower) = readDigits radix digits := by
  cases digits with
  | nil => rfl
  | cons first rest => exact readDigitsFrom_map_toLower radix 0 (first :: rest)

/-- A number is read from its own text. -/
theorem readDigits_toString (number : Nat) :
    readDigits 10 (toString number).toList = some number := by
  rw [readDigits_eq_some_iff, Nat.toString_eq_ofList_toDigits,
    String.toList_ofList]
  exact ⟨Nat.toDigits_ne_nil,
    readDigitsFrom_toDigits (by decide) (by decide) number⟩

end Text

/-! ## Values in a text -/

namespace Smt

open FlowWitness.Program
open FlowWitness.Text

/-- The text is read as an expression, and the expression as the value. -/
def Decodes (text : String) (value : ModelValue) : Prop :=
  ∃ tree, SExpr.read text = .ok tree ∧ readValue tree = some value

theorem decodes_bool (value : Bool) :
    Decodes (Term.bool value).text (.bool value) := by
  refine ⟨_, (Term.legible_bool value).read, ?_⟩
  cases value <;> rfl

theorem decodes_stringLiteral (text : String) :
    Decodes (Term.stringLiteral text).text (.string text) :=
  ⟨_, (Term.legible_stringLiteral text).read, rfl⟩

/-! ## Integers -/

theorem readAtomValue_of_readDigits
    {digits : List Char} {number : Nat}
    (read : readDigits 10 digits = some number)
    (small : number < integerBound) :
    readAtomValue digits = some (.int number) := by
  unfold readAtomValue
  split
  · cases read
  · cases read
  · cases read
  · cases read
  · rw [readSigned_of_readDigits read small]
    rfl

theorem decodes_numeral
    {number : Int} (least : -(integerBound : Int) < number)
    (greatest : number < integerBound) :
    Decodes (Term.numeral number).text (.int number) := by
  rcases number with magnitude | below
  · have small : magnitude < integerBound := by simpa using greatest
    refine ⟨_, (legible_word (isWord_number magnitude)).read, ?_⟩
    exact readAtomValue_of_readDigits (readDigits_toString magnitude) small
  · rw [Int.negSucc_eq] at least ⊢
    have small : below + 1 < integerBound := by omega
    refine ⟨_, (Term.legible_negative below).read, ?_⟩
    have above : (below + 1 : Nat) ≠ -(integerBound : Int) := by omega
    change (readSigned 10 integerBound (toString (below + 1)).toList).map
      (fun value => ModelValue.int (opposite value)) = _
    rw [readSigned_of_readDigits (readDigits_toString _) small,
      Option.map_some, opposite, if_neg above]
    rfl

/-! ## Bit-vectors -/

/-- The number and the width, as terms and solvers spell them. -/
theorem decodes_bitVec
    {number width : Nat} (small : number < wordCount patternBits)
    (narrow : width < widthBound) :
    Decodes (Term.bitVec number width).text (.bitVec number width) := by
  refine ⟨_, (Term.legible_bitVec number width).read, ?_⟩
  change readIndexedBitVec ("bv" ++ toString number).toList
    (toString width).toList = _
  rw [String.toList_append]
  change (readUnsigned 10 (wordCount patternBits)
    (toString number).toList).bind _ = _
  rw [readUnsigned_of_readDigits (readDigits_toString number) small,
    Option.bind_some,
    readUnsigned_of_readDigits (readDigits_toString width) narrow]
  rfl

theorem readBitVec_of_readDigits
    {radix bitsPerDigit number : Nat} {digits : List Char}
    (fits : digits.length * bitsPerDigit ≤ patternBits)
    (read : readDigits radix digits = some number)
    (small : number < wordCount patternBits) :
    readBitVec radix bitsPerDigit digits =
      some (.bitVec number (digits.length * bitsPerDigit)) := by
  have nonempty := (readDigits_eq_some_iff.mp read).1
  rw [readBitVec, if_neg (by simp [nonempty, fits]),
    readUnsigned_of_readDigits read small]
  rfl

/-- A mark and digits are one atom. -/
theorem legible_digits
    {radix number : Nat} {mark : Char} {digits : List Char}
    (plain : ScanState.endsAtom mark = false)
    (read : readDigits radix digits = some number) :
    Legible ('#' :: mark :: digits)
      (.atom (String.ofList ('#' :: mark :: digits))) := by
  refine legible_plain (by simp) ?_
  rw [List.forall_mem_cons, List.forall_mem_cons]
  refine ⟨by decide, plain, fun digit member => ?_⟩
  exact plain_of_alphanumeric (alphanumeric_of_readDigitsFrom
    (readDigits_eq_some_iff.mp read).2 digit member)

/-- The digits of a bit-vector, after the mark of their radix. -/
theorem decodes_digits
    {radix bitsPerDigit number : Nat} {mark : Char} {digits : List Char}
    (marked : ∀ digits, readAtomValue ('#' :: mark :: digits) =
      readBitVec radix bitsPerDigit digits)
    (plain : ScanState.endsAtom mark = false)
    (fits : digits.length * bitsPerDigit ≤ patternBits)
    (read : readDigits radix digits = some number)
    (small : number < wordCount patternBits) :
    Decodes (String.ofList ('#' :: mark :: digits))
      (.bitVec number (digits.length * bitsPerDigit)) := by
  have legible := legible_digits plain read
  rw [← String.toList_ofList (l := '#' :: mark :: digits)] at legible
  refine ⟨_, Legible.read legible, ?_⟩
  rw [String.toList_ofList, readValue, String.toList_ofList, marked]
  exact readBitVec_of_readDigits fits read small

/-- The number of a literal is reduced to its width, however wide that is. -/
theorem mod_patternCount
    {number : Nat} (small : number < wordCount patternBits) (width : Nat) :
    number % patternCount width = number % wordCount width := by
  rcases Nat.le_total width patternBits with narrow | wide
  · rw [patternCount, Nat.min_eq_left narrow]
  · rw [patternCount, Nat.min_eq_right wide, Nat.mod_eq_of_lt small,
      Nat.mod_eq_of_lt (Nat.lt_of_lt_of_le small (wordCount_le wide))]

theorem decodes_binary
    {width number : Nat} (positive : 1 ≤ width) (narrow : width ≤ patternBits)
    (small : number < wordCount width) :
    Decodes (String.ofList ('#' :: 'b' :: padded 2 width number))
      (.bitVec number width) := by
  have length : (padded 2 width number).length = width :=
    length_padded (by decide) positive small
  have decodes := decodes_digits (fun _ => rfl)
    (show ScanState.endsAtom 'b' = false by decide)
    (show (padded 2 width number).length * 1 ≤ patternBits by omega)
    (readDigits_padded (by decide) (by decide) width number)
    (Nat.lt_of_lt_of_le small (wordCount_le narrow))
  rwa [length, Nat.mul_one] at decodes

theorem decodes_hexadecimal
    {count number : Nat} {digits : List Char} (positive : 1 ≤ count)
    (narrow : 4 * count ≤ patternBits) (small : number < wordCount (4 * count))
    (lower : digits.map Char.toLower = padded 16 count number) :
    Decodes (String.ofList ('#' :: 'x' :: digits))
      (.bitVec number (4 * count)) := by
  have fits : number < Nat.pow 16 count := by
    have same : wordCount (4 * count) = Nat.pow 16 count := Nat.pow_mul ..
    rwa [← same]
  have length : digits.length = count := by
    rw [← List.length_map, lower]
    exact length_padded (by decide) positive fits
  have read : readDigits 16 digits = some number := by
    rw [← readDigits_map_toLower, lower]
    exact readDigits_padded (by decide) (by decide) count number
  have decodes := decodes_digits (fun _ => rfl)
    (show ScanState.endsAtom 'x' = false by decide)
    (show digits.length * 4 ≤ patternBits by omega) read
    (Nat.lt_of_lt_of_le small (wordCount_le narrow))
  rwa [length, Nat.mul_comm] at decodes

/--
Literals are decoded as the values they stand for: a truth value, a number
reduced to its width, an integer, a text.  And a bit-vector of up to 128 bits
is decoded alike from its binary digits, from its hexadecimal digits in either
case, and from its number and width.
-/
theorem literals_decode_to_their_values :
    (∀ value, Decodes (Term.bool value).text (.bool value)) ∧
    (∀ number width, number < wordCount patternBits → width < widthBound →
      Decodes (Term.bitVecLiteral number width).text
        (.bitVec (number % wordCount width) width)) ∧
    (∀ number : Int, -(integerBound : Int) < number → number < integerBound →
      Decodes (Term.numeral number).text (.int number)) ∧
    (∀ text, Decodes (Term.stringLiteral text).text (.string text)) ∧
    ∀ width, 1 ≤ width → width ≤ 128 → ∀ number, number < wordCount width →
      Decodes (String.ofList ('#' :: 'b' :: padded 2 width number))
        (.bitVec number width) ∧
      (∀ count digits, width = 4 * count →
        digits.map Char.toLower = padded 16 count number →
        Decodes (String.ofList ('#' :: 'x' :: digits))
          (.bitVec number width)) ∧
      Decodes ("(_ bv" ++ toString number ++ " " ++ toString width ++ ")")
        (.bitVec number width) := by
  refine ⟨decodes_bool, ?_, fun _ => decodes_numeral, decodes_stringLiteral,
    ?_⟩
  · intro number width small narrow
    rw [Term.bitVecLiteral, mod_patternCount small]
    exact decodes_bitVec (Nat.lt_of_le_of_lt (Nat.mod_le _ _) small) narrow
  · intro width positive narrow number small
    refine ⟨decodes_binary positive narrow small, ?_, ?_⟩
    · rintro count digits rfl lower
      exact decodes_hexadecimal (by omega) narrow small lower
    · exact decodes_bitVec (Nat.lt_of_lt_of_le small (wordCount_le narrow))
        (Nat.lt_of_le_of_lt narrow (by decide))

/--
The widest pattern cut to four bits, the least integer but one, and a byte in
digits of both cases.
-/
theorem extremes_decode :
    Decodes (Term.bitVecLiteral (wordCount 128 - 1) 4).text (.bitVec 15 4) ∧
      Decodes (Term.numeral (1 - (wordCount 127 : Int))).text
        (.int (1 - (wordCount 127 : Int))) ∧
      Decodes "#xFf" (.bitVec 255 8) := by
  rcases literals_decode_to_their_values with
    ⟨_, bitVecs, numerals, _, spellings⟩
  refine ⟨?_, ?_, ?_⟩
  · exact bitVecs (wordCount 128 - 1) 4 (by decide) (by decide)
  · exact numerals (1 - (wordCount 127 : Int)) (by decide) (by decide)
  · exact (spellings 8 (by decide) (by decide) 255 (by decide)).2.1 2
      ['F', 'f'] rfl (by decide)

end Smt

end FlowWitness
