import FlowWitness.Smt.Term

/-!
# String constraints

Character classes and patterns that denote regular languages, and predicates
on string terms.  Every class is a language of one-character strings; every
class is a pattern, and patterns are closed under union, concatenation and
repetition.
-/

namespace FlowWitness.Smt

/-! ## Character classes -/

/-- A set of characters, as the language of the strings of one of them. -/
structure CharClass where
  term : Term
  deriving DecidableEq, Repr

namespace CharClass

/-- The characters between two characters, both included. -/
def range (low high : Char) : CharClass := ⟨.reRange low high⟩

/-- The characters of both classes. -/
def union (first second : CharClass) : CharClass :=
  ⟨.applyBinary .reUnion first.term second.term⟩

/-- The decimal digits. -/
def digit : CharClass := range '0' '9'

/-- The lower-case Latin letters. -/
def lower : CharClass := range 'a' 'z'

/-- The upper-case Latin letters. -/
def upper : CharClass := range 'A' 'Z'

/-- The Latin letters. -/
def alpha : CharClass := lower.union upper

/-- The Latin letters and the decimal digits. -/
def alnum : CharClass := alpha.union digit

/-- Every character. -/
def any : CharClass := ⟨.reAllChar⟩

/-- One character. -/
def single (character : Char) : CharClass :=
  ⟨.applyUnary .strToRe (.stringLiteral (String.ofList [character]))⟩

/-- The characters of a text; none for the empty text. -/
def anyOf (text : String) : CharClass :=
  match text.toList.map single with
  | [] => ⟨.reNone⟩
  | first :: rest => rest.foldl union first

end CharClass

/-! ## Patterns -/

/-- A regular language of strings. -/
structure Pattern where
  term : Term
  deriving DecidableEq, Repr

/-- A class as a pattern. -/
def CharClass.toPattern (characters : CharClass) : Pattern := ⟨characters.term⟩

namespace Pattern

/-- One text, and no other. -/
def literal (text : String) : Pattern :=
  ⟨.applyUnary .strToRe (.stringLiteral text)⟩

/-- Every string. -/
def anything : Pattern := ⟨.applyUnary .reStar .reAllChar⟩

/-- What either pattern matches. -/
def union (first second : Pattern) : Pattern :=
  ⟨.applyBinary .reUnion first.term second.term⟩

/-- The first pattern, then the second. -/
def followedBy (first second : Pattern) : Pattern :=
  ⟨.applyBinary .reConcat first.term second.term⟩

/-- The pattern any number of times. -/
def star (pattern : Pattern) : Pattern := ⟨.applyUnary .reStar pattern.term⟩

/-- The pattern at least once. -/
def plus (pattern : Pattern) : Pattern := ⟨.applyUnary .rePlus pattern.term⟩

/-- The pattern at most once. -/
def optional (pattern : Pattern) : Pattern := ⟨.applyUnary .reOpt pattern.term⟩

end Pattern

/-! ## String terms -/

/-- A term of sort `String`. -/
structure StringTerm where
  term : Term
  deriving DecidableEq, Repr

namespace StringTerm

/-- A string variable. -/
def var (name : String) : StringTerm := ⟨.constant name .string⟩

/-- A fixed text. -/
def literal (text : String) : StringTerm := ⟨.stringLiteral text⟩

/-- The first string, then the second. -/
def concat (first second : StringTerm) : StringTerm :=
  ⟨.applyBinary .strConcat first.term second.term⟩

/-- The number of characters. -/
def length (string : StringTerm) : Term := .applyUnary .strLen string.term

/-- The whole string is in the language of the pattern. -/
def matchesPattern (string : StringTerm) (pattern : Pattern) : Term :=
  .applyBinary .strInRe string.term pattern.term

/-- The other string occurs in this one. -/
def contains (string needle : StringTerm) : Term :=
  .applyBinary .strContains string.term needle.term

/-- This string starts with the other one. -/
def startsWith (string start : StringTerm) : Term :=
  .applyBinary .strPrefixOf start.term string.term

/-- This string ends with the other one. -/
def endsWith (string ending : StringTerm) : Term :=
  .applyBinary .strSuffixOf ending.term string.term

/-- Compare the number of characters with a number. -/
def compareLength (relation : BinaryFunction) (string : StringTerm)
    (count : Nat) : Term :=
  .applyBinary relation string.length (.numeral count)

/-- The number of characters lies between two numbers, both included. -/
def lengthBetween (string : StringTerm) (low high : Nat) : Term :=
  .conjunction (string.compareLength .intGe low)
    (string.compareLength .intLe high)

end StringTerm

end FlowWitness.Smt
