import FlowWitness.BitWidth
import FlowWitness.Yaml.Scalar

/-!
# What plain YAML scalars look like

A plain scalar may look like a null, a truth value or a number.  Whole numbers
are decimal, or hexadecimal, octal or binary after a mark; digits after a
leading zero are no number.  A decimal fraction counts only if it is within
the range of double precision.
-/

namespace FlowWitness.Yaml

open FlowWitness.Text

/-- Is this a word for nothing? -/
def isNull (text : String) : Bool :=
  ["null", "Null", "NULL", "~"].contains text

/-- Is this a word for a truth value? -/
def isTruth (text : String) : Bool :=
  ["true", "True", "TRUE", "false", "False", "FALSE"].contains text

/-! ## Whole numbers -/

/-- Leave out one leading plus sign. -/
def withoutPlus : List Char → List Char
  | '+' :: rest => rest
  | other => other

/-- Leave out one leading sign. -/
def withoutSign : List Char → List Char
  | '+' :: rest => rest
  | '-' :: rest => rest
  | other => other

/-- Are these digits after a leading zero? -/
def isZeroPadded (characters : List Char) : Bool :=
  match withoutSign characters with
  | '0' :: next :: rest => (next :: rest).all Char.isDigit
  | _ => false

/-- The number after a mark that gives its radix. -/
def readMarked : List Char → Option Nat
  | '0' :: 'x' :: digits => readDigits 16 digits
  | '0' :: 'o' :: digits => readDigits 8 digits
  | '0' :: 'b' :: digits => readDigits 2 digits
  | _ => none

/-- Read a number below a bound, with at most one plus sign. -/
def readNatural (bound : Nat) (characters : List Char) : Option Nat :=
  let unsigned := withoutPlus characters
  let value :=
    match readMarked unsigned with
    | some value => some value
    | none => if isZeroPadded characters then none else readDigits 10 unsigned
  value.filter (fun value => decide (value < bound))

/-- Does this look like a number below zero, with a magnitude up to a bound? -/
def isNegative (bound : Nat) : List Char → Bool
  | '-' :: unsigned =>
    let value :=
      match readMarked unsigned with
      | some value => some value
      | none => if isZeroPadded unsigned then none else readDigits 10 unsigned
    value.any (fun value => decide (value ≤ bound))
  | _ => false

/-- Does this look like a whole number of at most 128 bits? -/
def isWhole (characters : List Char) : Bool :=
  (readNatural (wordCount 128) characters).isSome ||
    isNegative (wordCount 127) characters

/-! ## Fractions -/

/-- A decimal number: digits, and how many places the point stands after them. -/
structure Decimal where
  digits : Nat
  places : Int
  deriving DecidableEq, Repr

/-- The least number that is out of the range of double precision. -/
def doubleLimit : Nat := wordCount 1024 - wordCount 970

/--
Is the number in the range of double precision?  The number of its digits
decides, except next to the limit, which has 309 digits.
-/
def Decimal.isInRange (decimal : Decimal) : Bool :=
  let length := (Nat.toDigits 10 decimal.digits).length
  let size := (length : Int) + decimal.places
  if decimal.digits = 0 ∨ size < 309 then true
  else if 309 < size then false
  else
    decide (decimal.digits * Nat.pow 10 decimal.places.toNat <
      doubleLimit * Nat.pow 10 (-decimal.places).toNat)

/-- Read an exponent, if one is given. -/
def readExponent : List Char → Option Int
  | [] => some 0
  | mark :: rest =>
    if mark == 'e' || mark == 'E' then
      let magnitude := readDigits 10 (withoutSign rest)
      if rest.head? == some '-' then magnitude.map (fun value => -(value : Int))
      else magnitude.map Int.ofNat
    else none

/-- Read a decimal number, with digits before or after the point. -/
def readDecimal (characters : List Char) : Option Decimal := do
  let whole := characters.takeWhile Char.isDigit
  let afterWhole := characters.drop whole.length
  let fraction := match afterWhole with
    | '.' :: rest => rest.takeWhile Char.isDigit
    | _ => []
  let afterFraction := match afterWhole with
    | '.' :: rest => rest.drop fraction.length
    | other => other
  let digits ← readDigits 10 (whole ++ fraction)
  let exponent ← readExponent afterFraction
  return ⟨digits, exponent - fraction.length⟩

/-- Is this a word for an infinity, or for what is not a number? -/
def isBeyondNumbers (text : String) : Bool :=
  [".inf", ".Inf", ".INF", "+.inf", "+.Inf", "+.INF", "-.inf", "-.Inf", "-.INF",
    ".nan", ".NaN", ".NAN"].contains text

/-- Does this look like a decimal fraction? -/
def isFraction (text : String) : Bool :=
  isBeyondNumbers text ||
    (!isZeroPadded text.toList &&
      (readDecimal (withoutSign text.toList)).any Decimal.isInRange)

/-! ## Texts -/

/-- Would this, written plainly, be taken for something other than a text? -/
def looksLikeData (text : String) : Bool :=
  text.isEmpty || isNull text || isTruth text || isWhole text.toList ||
    isFraction text || isZeroPadded text.toList

end FlowWitness.Yaml
