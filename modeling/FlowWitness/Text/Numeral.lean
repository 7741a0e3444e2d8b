/-!
# Numerals

Reading and writing whole numbers in a radix.  A numeral is a nonempty run of
digits of the radix, in either case; a reader of bounded numbers also takes
one leading sign and refuses what does not fit its bound.
-/

namespace FlowWitness.Text

/--
The value of a digit, `0` to `9` and then `a` to `f` in either case.
-/
def digitValue? (character : Char) : Option Nat :=
  let code := character.toNat
  if 48 ≤ code && code ≤ 57 then some (code - 48)
  else if 97 ≤ code && code ≤ 102 then some (code - 87)
  else if 65 ≤ code && code ≤ 70 then some (code - 55)
  else none

/--
The value of a character as a digit of the given radix.
-/
def radixDigit? (radix : Nat) (character : Char) : Option Nat :=
  (digitValue? character).filter (fun digit => decide (digit < radix))

/--
Continue a numeral whose digits so far have the value `value`.
-/
def readDigitsFrom (radix : Nat) : Nat → List Char → Option Nat
  | value, [] => some value
  | value, character :: rest =>
    match radixDigit? radix character with
    | some digit => readDigitsFrom radix (value * radix + digit) rest
    | none => none

/--
The value of a nonempty run of digits; nothing else is a numeral.
-/
def readDigits (radix : Nat) (characters : List Char) : Option Nat :=
  match characters with
  | [] => none
  | _ :: _ => readDigitsFrom radix 0 characters

/--
Read a number below `bound`, with at most one leading plus sign.
-/
def readUnsigned (radix bound : Nat) (characters : List Char) : Option Nat :=
  let digits :=
    match characters with
    | '+' :: rest => rest
    | other => other
  (readDigits radix digits).filter (fun value => decide (value < bound))

/--
Read a number from `-bound` up to `bound - 1`, with at most one leading sign.
-/
def readSigned (radix bound : Nat) (characters : List Char) : Option Int :=
  match characters with
  | '-' :: digits =>
    ((readDigits radix digits).filter (fun value => decide (value ≤ bound))).map
      (fun value => -(value : Int))
  | other => (readUnsigned radix bound other).map Int.ofNat

/--
The number in hexadecimal, in lower case and without leading zeros.
-/
def hexadecimal (value : Nat) : String :=
  String.ofList (Nat.toDigits 16 value)

end FlowWitness.Text
