import FlowWitness.Proofs.Smt.StringMeaning

/-!
# What string constraints mean

Character classes, patterns, string terms and constraints, nested in any way
by the calls that make them, against what these calls are meant to say.  A
class stands for some characters; a pattern matches a string or not; a string
term has a string, once its variables have theirs; a constraint holds of these
strings or not.  All this is said of characters and strings alone, without
terms and without languages.

On the other side are the terms that the calls make, with their meaning by the
standard.  The two agree wherever texts hold characters of the standard's
range and no backslash, so that each literal is meant word for word.
-/

namespace FlowWitness.Smt

open FlowWitness.Text
open scoped Computability

/-! ## Texts that are meant word for word -/

/-- A text without escape sequences stands for its characters. -/
theorem unescape_of_verbatim
    {text : List Char} {points : List CodePoint} (plain : ¬ Escaped text)
    (verbatim : Verbatim text points) :
    unescape text = some points := by
  have inRange : ∀ character ∈ text, character.toNat < 0x30000 := by
    intro character member
    have among := List.mem_map_of_mem (f := Char.toNat) member
    rw [← verbatim] at among
    obtain ⟨point, _, same⟩ := List.mem_map.mp among
    exact same ▸ point.isLt
  obtain ⟨found, unescaped⟩ := exists_unescape inRange
  have same : found.map Fin.val = points.map Fin.val :=
    (verbatim_of_not_escaped unescaped plain).trans verbatim.symm
  rw [unescaped, List.map_injective_iff.mpr Fin.val_injective same]

theorem not_escaped_of_backslash_not_mem
    {text : List Char} (plain : '\\' ∉ text) : ¬ Escaped text := by
  rintro ⟨before, sequence, after, point, rfl, escape⟩
  apply plain
  cases escape <;> simp

theorem not_escaped_singleton (character : Char) : ¬ Escaped [character] := by
  rintro ⟨before, sequence, after, point, same, escape⟩
  have two := escape.two_le_length
  have one := congrArg List.length same
  simp only [List.length_cons, List.length_nil, List.length_append] at one
  omega

/-- The code point of a character in the standard's range. -/
def CodePoint.ofChar (character : Char) (small : character.toNat < 0x30000) :
    CodePoint :=
  ⟨character.toNat, small⟩

/-- A text of characters in the standard's range, none of them a backslash. -/
structure PlainText where
  text : String
  inRange : ∀ character ∈ text.toList, character.toNat < 0x30000
  plain : '\\' ∉ text.toList

namespace PlainText

/-- The characters of the text as code points. -/
def points (plainText : PlainText) : List CodePoint :=
  plainText.text.toList.pmap CodePoint.ofChar plainText.inRange

theorem verbatim_points (plainText : PlainText) :
    Verbatim plainText.text.toList plainText.points := by
  rw [Verbatim, points, List.map_pmap]
  exact List.pmap_eq_map plainText.inRange

theorem unescape_text (plainText : PlainText) :
    unescape plainText.text.toList = some plainText.points :=
  unescape_of_verbatim (not_escaped_of_backslash_not_mem plainText.plain)
    plainText.verbatim_points

end PlainText

theorem unescape_singleton
    {character : Char} (small : character.toNat < 0x30000) :
    unescape [character] = some [CodePoint.ofChar character small] :=
  unescape_of_verbatim (not_escaped_singleton character) rfl

/-! ## Integers and conditions by the standard -/

/-- What the function says of two strings. -/
def BinaryFunction.onStrings? :
    BinaryFunction → Option (List CodePoint → List CodePoint → Prop)
  | .strContains => some (fun whole part => part <:+: whole)
  | .strPrefixOf => some (fun start whole => start <+: whole)
  | .strSuffixOf => some (fun ending whole => ending <:+ whole)
  | _ => none

/-- What the function says of two integers. -/
def BinaryFunction.onIntegers? : BinaryFunction → Option (Int → Int → Prop)
  | .equal => some (fun first second => first = second)
  | .intLe => some (fun first second => first ≤ second)
  | .intLt => some (fun first second => first < second)
  | .intGe => some (fun first second => first ≥ second)
  | .intGt => some (fun first second => first > second)
  | _ => none

namespace Term

/-- The integer of a term, if it has one. -/
def integer? (strings : String → List CodePoint) : Term → Option Int
  | .nullary symbol =>
    if symbol.isBuiltin then
      (readDigits 10 symbol.name.toList).map Int.ofNat
    else none
  | .unary symbol argument =>
    if symbol.isBuiltin &&
        UnaryFunction.ofName? symbol.name == some .strLen then
      (argument.string? strings).map (fun string => (string.length : Int))
    else none
  | _ => none

/-- What a condition on strings says, if it says anything. -/
def statement? (strings : String → List CodePoint) : Term → Option Prop
  | .binary symbol first second =>
    if symbol.isBuiltin then
      match BinaryFunction.ofName? symbol.name with
      | some .and =>
        (first.statement? strings).bind (fun left =>
          (second.statement? strings).map (left ∧ ·))
      | some .strInRe =>
        (first.string? strings).bind (fun string =>
          (second.language? strings).map (string ∈ ·))
      | some function =>
        match function.onStrings?, function.onIntegers? with
        | some relation, _ =>
          (first.string? strings).bind (fun left =>
            (second.string? strings).map (relation left))
        | none, some relation =>
          (first.integer? strings).bind (fun left =>
            (second.integer? strings).map (relation left))
        | none, none => none
      | none => none
    else none
  | _ => none

variable (strings : String → List CodePoint)

@[simp]
theorem language?_reNone : reNone.language? strings = some 0 :=
  rfl

@[simp]
theorem language?_reStar (argument : Term) :
    (applyUnary .reStar argument).language? strings =
      (argument.language? strings).map (·∗) := by
  simp [applyUnary, language?, FunctionSymbol.isBuiltin]

@[simp]
theorem language?_rePlus (argument : Term) :
    (applyUnary .rePlus argument).language? strings =
      (argument.language? strings).map (fun once => once * once∗) := by
  simp [applyUnary, language?, FunctionSymbol.isBuiltin]

@[simp]
theorem language?_reOpt (argument : Term) :
    (applyUnary .reOpt argument).language? strings =
      (argument.language? strings).map (1 + ·) := by
  simp [applyUnary, language?, FunctionSymbol.isBuiltin]

@[simp]
theorem language?_reUnion (first second : Term) :
    (applyBinary .reUnion first second).language? strings =
      (first.language? strings).bind (fun left =>
        (second.language? strings).map (left + ·)) := by
  simp [applyBinary, language?, FunctionSymbol.isBuiltin]

@[simp]
theorem language?_reConcat (first second : Term) :
    (applyBinary .reConcat first second).language? strings =
      (first.language? strings).bind (fun left =>
        (second.language? strings).map (left * ·)) := by
  simp [applyBinary, language?, FunctionSymbol.isBuiltin]

theorem language?_reRange
    {low high : Char} (lowSmall : low.toNat < 0x30000)
    (highSmall : high.toNat < 0x30000) :
    (reRange low high).language? strings =
      some {string | ∃ point : CodePoint, string = [point] ∧
        low.toNat ≤ point.val ∧ point.val ≤ high.toNat} := by
  have lowString : (stringLiteral (String.ofList [low])).string? strings =
      some [CodePoint.ofChar low lowSmall] := by
    rw [string?_stringLiteral, String.toList_ofList, unescape_singleton]
  have highString : (stringLiteral (String.ofList [high])).string? strings =
      some [CodePoint.ofChar high highSmall] := by
    rw [string?_stringLiteral, String.toList_ofList, unescape_singleton]
  simp only [reRange, applyBinary, language?, FunctionSymbol.isBuiltin,
    BinaryFunction.ofName?_name, lowString, highString]
  rfl

@[simp]
theorem string?_strConcat (first second : Term) :
    (applyBinary .strConcat first second).string? strings =
      (first.string? strings).bind (fun front =>
        (second.string? strings).map (front ++ ·)) := by
  simp [applyBinary, string?, FunctionSymbol.isBuiltin]

@[simp]
theorem string?_constant (name : String) :
    (constant name .string).string? strings = some (strings name) :=
  rfl

@[simp]
theorem integer?_strLen (argument : Term) :
    (applyUnary .strLen argument).integer? strings =
      (argument.string? strings).map (fun string => (string.length : Int)) := by
  simp [applyUnary, integer?, FunctionSymbol.isBuiltin]

theorem integer?_builtin (name : String) (sort : SmtSort) :
    (builtin name sort).integer? strings =
      (readDigits 10 name.toList).map Int.ofNat := by
  rw [builtin, integer?]
  exact if_pos rfl

@[simp]
theorem integer?_numeral (count : Nat) :
    (numeral count).integer? strings = some (count : Int) := by
  have natural : ¬ (count : Int) < 0 := by omega
  rw [numeral, if_neg natural, integer?_builtin, Int.natAbs_natCast,
    readDigits_toString]
  rfl

@[simp]
theorem statement?_conjunction (first second : Term) :
    (conjunction first second).statement? strings =
      (first.statement? strings).bind (fun left =>
        (second.statement? strings).map (left ∧ ·)) := by
  simp [conjunction, applyBinary, statement?, FunctionSymbol.isBuiltin]

@[simp]
theorem statement?_strInRe (first second : Term) :
    (applyBinary .strInRe first second).statement? strings =
      (first.string? strings).bind (fun string =>
        (second.language? strings).map (string ∈ ·)) := by
  simp [applyBinary, statement?, FunctionSymbol.isBuiltin]

theorem statement?_of_onStrings?
    {function : BinaryFunction}
    {relation : List CodePoint → List CodePoint → Prop}
    (related : function.onStrings? = some relation) (first second : Term) :
    (applyBinary function first second).statement? strings =
      (first.string? strings).bind (fun left =>
        (second.string? strings).map (relation left)) := by
  cases function <;> cases related <;>
    simp [applyBinary, statement?, FunctionSymbol.isBuiltin,
      BinaryFunction.onStrings?]

theorem statement?_of_onIntegers?
    {function : BinaryFunction} {relation : Int → Int → Prop}
    (related : function.onIntegers? = some relation) (first second : Term) :
    (applyBinary function first second).statement? strings =
      (first.integer? strings).bind (fun left =>
        (second.integer? strings).map (relation left)) := by
  cases function <;> cases related <;>
    simp [applyBinary, statement?, FunctionSymbol.isBuiltin,
      BinaryFunction.onStrings?, BinaryFunction.onIntegers?]

end Term

/-! ## Character classes -/

/-- The calls that make a character class. -/
inductive ClassScript where
  | digit
  | lower
  | upper
  | alpha
  | alnum
  | any
  | range (low high : Char) (lowSmall : low.toNat < 0x30000)
      (highSmall : high.toNat < 0x30000)
  | anyOf (characters : PlainText)
  | union (first second : ClassScript)

namespace ClassScript

/-- What the calls make. -/
def made : ClassScript → CharClass
  | digit => .digit
  | lower => .lower
  | upper => .upper
  | alpha => .alpha
  | alnum => .alnum
  | any => .any
  | range low high _ _ => .range low high
  | anyOf characters => .anyOf characters.text
  | union first second => first.made.union second.made

/-- The characters from one to another. -/
def Between (low high : Char) (point : CodePoint) : Prop :=
  low.toNat ≤ point.val ∧ point.val ≤ high.toNat

/-- The characters that the class is meant to have. -/
def Has : ClassScript → CodePoint → Prop
  | digit, point => Between '0' '9' point
  | lower, point => Between 'a' 'z' point
  | upper, point => Between 'A' 'Z' point
  | alpha, point => Between 'a' 'z' point ∨ Between 'A' 'Z' point
  | alnum, point =>
    (Between 'a' 'z' point ∨ Between 'A' 'Z' point) ∨ Between '0' '9' point
  | any, _ => True
  | range low high _ _, point => Between low high point
  | anyOf characters, point => point ∈ characters.points
  | union first second, point => first.Has point ∨ second.Has point

end ClassScript

/-- The strings of one character, which has the property. -/
def letters (has : CodePoint → Prop) : Language CodePoint :=
  {string | ∃ point, string = [point] ∧ has point}

theorem letters_add (first second : CodePoint → Prop) :
    letters first + letters second =
      letters (fun point => first point ∨ second point) := by
  ext string
  rw [Language.mem_add]
  constructor
  · rintro (⟨point, rfl, own⟩ | ⟨point, rfl, own⟩)
    · exact ⟨point, rfl, Or.inl own⟩
    · exact ⟨point, rfl, Or.inr own⟩
  · rintro ⟨point, rfl, own | own⟩
    · exact Or.inl ⟨point, rfl, own⟩
    · exact Or.inr ⟨point, rfl, own⟩

namespace CharClass

variable {strings : String → List CodePoint}

theorem language?_range
    {low high : Char} (lowSmall : low.toNat < 0x30000)
    (highSmall : high.toNat < 0x30000) :
    (range low high).term.language? strings =
      some (letters (ClassScript.Between low high)) :=
  Term.language?_reRange strings lowSmall highSmall

theorem language?_union
    {first second : CharClass} {has hasToo : CodePoint → Prop}
    (ofFirst : first.term.language? strings = some (letters has))
    (ofSecond : second.term.language? strings = some (letters hasToo)) :
    (first.union second).term.language? strings =
      some (letters (fun point => has point ∨ hasToo point)) := by
  rw [union, Term.language?_reUnion, ofFirst, ofSecond, ← letters_add]
  rfl

theorem language?_any :
    any.term.language? strings = some (letters (fun _ => True)) := by
  refine congrArg some (Set.ext fun string => ?_)
  change string.length = 1 ↔ _
  rw [List.length_eq_one_iff]
  constructor
  · rintro ⟨point, rfl⟩
    exact ⟨point, rfl, trivial⟩
  · rintro ⟨point, rfl, _⟩
    exact ⟨point, rfl⟩

theorem language?_single
    {character : Char} (small : character.toNat < 0x30000) :
    (single character).term.language? strings =
      some (letters (· = CodePoint.ofChar character small)) := by
  rw [single, Term.language?_strToRe, Term.string?_stringLiteral,
    String.toList_ofList, unescape_singleton small, Option.map_some,
    Option.some.injEq]
  ext string
  constructor
  · rintro rfl
    exact ⟨_, rfl, rfl⟩
  · rintro ⟨_, rfl, rfl⟩
    rfl

/-- Folding the characters of a text into a class adds them to it. -/
theorem language?_foldl_union
    {characters : List Char}
    (inRange : ∀ character ∈ characters, character.toNat < 0x30000)
    {first : CharClass} {has : CodePoint → Prop}
    (ofFirst : first.term.language? strings = some (letters has)) :
    ((characters.map single).foldl union first).term.language? strings =
      some (letters (fun point =>
        has point ∨ point ∈ characters.pmap CodePoint.ofChar inRange)) := by
  induction characters generalizing first has with
  | nil => simpa using ofFirst
  | cons character rest induction =>
      rw [List.forall_mem_cons] at inRange
      have folded := induction inRange.2
        (language?_union ofFirst (language?_single inRange.1))
      simpa only [List.map_cons, List.foldl_cons, List.pmap_cons,
        List.mem_cons, or_assoc] using folded

theorem language?_anyOf
    {text : String}
    (inRange : ∀ character ∈ text.toList, character.toNat < 0x30000) :
    (anyOf text).term.language? strings =
      some (letters (· ∈ text.toList.pmap CodePoint.ofChar inRange)) := by
  rw [anyOf]
  generalize text.toList = characters at inRange
  cases characters with
  | nil =>
      refine congrArg some (Set.ext fun string => ?_)
      exact iff_of_false (Language.notMem_zero string)
        (by rintro ⟨point, _, member⟩; cases member)
  | cons character rest =>
      rw [List.forall_mem_cons] at inRange
      have own : (single character).term.language? strings = _ :=
        language?_single inRange.1
      have folded := language?_foldl_union inRange.2 own
      simpa only [List.map_cons, List.pmap_cons, List.mem_cons] using folded

end CharClass

/-- A class matches the strings of one of its characters, and no others. -/
theorem ClassScript.language?_made
    (strings : String → List CodePoint) (script : ClassScript) :
    script.made.term.language? strings = some (letters script.Has) := by
  have digits : CharClass.digit.term.language? strings =
      some (letters (Between '0' '9')) :=
    CharClass.language?_range (by decide) (by decide)
  have lowers : CharClass.lower.term.language? strings =
      some (letters (Between 'a' 'z')) :=
    CharClass.language?_range (by decide) (by decide)
  have uppers : CharClass.upper.term.language? strings =
      some (letters (Between 'A' 'Z')) :=
    CharClass.language?_range (by decide) (by decide)
  induction script with
  | digit => exact digits
  | lower => exact lowers
  | upper => exact uppers
  | alpha => exact CharClass.language?_union lowers uppers
  | alnum =>
      exact CharClass.language?_union
        (CharClass.language?_union lowers uppers) digits
  | any => exact CharClass.language?_any
  | range low high lowSmall highSmall =>
      exact CharClass.language?_range lowSmall highSmall
  | anyOf characters => exact CharClass.language?_anyOf characters.inRange
  | union first second onFirst onSecond =>
      exact CharClass.language?_union onFirst onSecond

/-! ## Patterns -/

/-- The calls that make a pattern; a class is one wherever it is wanted. -/
inductive PatternScript where
  | ofClass (characters : ClassScript)
  | literal (text : PlainText)
  | anything
  | union (first second : PatternScript)
  | followedBy (first second : PatternScript)
  | star (pattern : PatternScript)
  | plus (pattern : PatternScript)
  | optional (pattern : PatternScript)

namespace PatternScript

/-- What the calls make. -/
def made : PatternScript → Pattern
  | ofClass characters => characters.made.toPattern
  | literal text => .literal text.text
  | anything => .anything
  | union first second => first.made.union second.made
  | followedBy first second => first.made.followedBy second.made
  | star pattern => pattern.made.star
  | plus pattern => pattern.made.plus
  | optional pattern => pattern.made.optional

/-- The strings that the pattern is meant to match. -/
def Matches : PatternScript → List CodePoint → Prop
  | ofClass characters, string =>
    ∃ point, string = [point] ∧ characters.Has point
  | literal text, string => string = text.points
  | anything, _ => True
  | union first second, string => first.Matches string ∨ second.Matches string
  | followedBy first second, string =>
    ∃ front back, string = front ++ back ∧
      first.Matches front ∧ second.Matches back
  | star pattern, string =>
    ∃ pieces : List (List CodePoint), string = pieces.flatten ∧
      ∀ piece ∈ pieces, pattern.Matches piece
  | plus pattern, string =>
    ∃ pieces : List (List CodePoint), pieces ≠ [] ∧ string = pieces.flatten ∧
      ∀ piece ∈ pieces, pattern.Matches piece
  | optional pattern, string => string = [] ∨ pattern.Matches string

/-- The strings that the pattern is meant to match, as a language. -/
def language (script : PatternScript) : Language CodePoint :=
  {string | script.Matches string}

end PatternScript

/-- Once and then any number of times is at least once. -/
theorem mem_mul_kstar {once : Language CodePoint} {string : List CodePoint} :
    string ∈ once * once∗ ↔
      ∃ pieces : List (List CodePoint), pieces ≠ [] ∧
        string = pieces.flatten ∧ ∀ piece ∈ pieces, piece ∈ once := by
  rw [Language.mem_mul]
  constructor
  · rintro ⟨first, own, others, repeated, rfl⟩
    obtain ⟨pieces, rfl, each⟩ := Language.mem_kstar.mp repeated
    exact ⟨first :: pieces, List.cons_ne_nil first pieces, rfl,
      List.forall_mem_cons.mpr ⟨own, each⟩⟩
  · rintro ⟨pieces, some, rfl, each⟩
    cases pieces with
    | nil => exact absurd rfl some
    | cons first pieces =>
        rw [List.forall_mem_cons] at each
        exact ⟨first, each.1, _, Language.join_mem_kstar each.2, rfl⟩

/-- Every string is made of strings of one character. -/
theorem mem_kstar_letters (string : List CodePoint) :
    string ∈ (letters (fun _ => True))∗ := by
  refine Language.mem_kstar.mpr ⟨string.map ([·]), ?_, ?_⟩
  · induction string with
    | nil => rfl
    | cons point rest induction =>
        rw [List.map_cons, List.flatten_cons, ← induction]
        rfl
  · intro piece member
    obtain ⟨point, _, rfl⟩ := List.mem_map.mp member
    exact ⟨point, rfl, trivial⟩

/-- A pattern matches the strings that it is meant to match, and no others. -/
theorem PatternScript.language?_made
    (strings : String → List CodePoint) (script : PatternScript) :
    script.made.term.language? strings = some script.language := by
  induction script with
  | ofClass characters => exact characters.language?_made strings
  | literal text => exact Pattern.language?_literal strings text.unescape_text
  | anything =>
      have letter : Term.reAllChar.language? strings = _ :=
        CharClass.language?_any
      rw [made, Pattern.anything, Term.language?_reStar, letter]
      refine congrArg some (Set.ext fun string => ?_)
      exact iff_of_true (mem_kstar_letters string) trivial
  | union first second onFirst onSecond =>
      rw [made, Pattern.union, Term.language?_reUnion, onFirst, onSecond]
      rfl
  | followedBy first second onFirst onSecond =>
      rw [made, Pattern.followedBy, Term.language?_reConcat, onFirst, onSecond]
      refine congrArg some (Set.ext fun string => ?_)
      refine Language.mem_mul.trans ⟨?_, ?_⟩
      · rintro ⟨front, own, back, ownToo, rfl⟩
        exact ⟨front, back, rfl, own, ownToo⟩
      · rintro ⟨front, back, rfl, own, ownToo⟩
        exact ⟨front, own, back, ownToo, rfl⟩
  | star pattern induction =>
      rw [made, Pattern.star, Term.language?_reStar, induction]
      exact congrArg some (Set.ext fun string => Language.mem_kstar)
  | plus pattern induction =>
      rw [made, Pattern.plus, Term.language?_rePlus, induction]
      exact congrArg some (Set.ext fun string => mem_mul_kstar)
  | optional pattern induction =>
      rw [made, Pattern.optional, Term.language?_reOpt, induction]
      rfl

/-! ## Strings -/

/-- The calls that make a string term. -/
inductive StringScript where
  | var (name : String)
  | literal (text : PlainText)
  | concat (first second : StringScript)

namespace StringScript

/-- What the calls make. -/
def made : StringScript → StringTerm
  | var name => .var name
  | literal text => .literal text.text
  | concat first second => first.made.concat second.made

/-- The string that is meant, where the variables stand for the given ones. -/
def value (strings : String → List CodePoint) : StringScript → List CodePoint
  | var name => strings name
  | literal text => text.points
  | concat first second => first.value strings ++ second.value strings

theorem string?_made
    (strings : String → List CodePoint) (script : StringScript) :
    script.made.term.string? strings = some (script.value strings) := by
  induction script with
  | var name => rfl
  | literal text =>
      exact (Term.string?_stringLiteral strings text.text).trans
        text.unescape_text
  | concat first second onFirst onSecond =>
      rw [made, StringTerm.concat, Term.string?_strConcat, onFirst, onSecond]
      rfl

theorem integer?_length_made
    (strings : String → List CodePoint) (script : StringScript) :
    script.made.length.integer? strings =
      some ((script.value strings).length : Int) := by
  rw [StringTerm.length, Term.integer?_strLen, string?_made]
  rfl

end StringScript

/-! ## Constraints -/

/-- How the length of a string can be compared with a number. -/
inductive LengthRelation where
  | equal
  | atMost
  | atLeast
  | below
  | above

namespace LengthRelation

/-- The function that compares. -/
def function : LengthRelation → BinaryFunction
  | equal => .equal
  | atMost => .intLe
  | atLeast => .intGe
  | below => .intLt
  | above => .intGt

/-- What is meant. -/
def Holds : LengthRelation → Nat → Nat → Prop
  | equal, length, count => length = count
  | atMost, length, count => length ≤ count
  | atLeast, length, count => count ≤ length
  | below, length, count => length < count
  | above, length, count => count < length

end LengthRelation

/-- The calls that make a constraint. -/
inductive ConstraintScript where
  | matchesPattern (string : StringScript) (pattern : PatternScript)
  | contains (string needle : StringScript)
  | startsWith (string start : StringScript)
  | endsWith (string ending : StringScript)
  | compareLength (relation : LengthRelation) (string : StringScript)
      (count : Nat)
  | lengthBetween (string : StringScript) (low high : Nat)

namespace ConstraintScript

/-- What the calls make. -/
def made : ConstraintScript → Term
  | matchesPattern string pattern => string.made.matchesPattern pattern.made
  | contains string needle => string.made.contains needle.made
  | startsWith string start => string.made.startsWith start.made
  | endsWith string ending => string.made.endsWith ending.made
  | compareLength relation string count =>
    string.made.compareLength relation.function count
  | lengthBetween string low high => string.made.lengthBetween low high

/-- What is meant, where the variables stand for the given strings. -/
def Holds (strings : String → List CodePoint) : ConstraintScript → Prop
  | matchesPattern string pattern => pattern.Matches (string.value strings)
  | contains string needle =>
    ∃ before after, string.value strings =
      before ++ needle.value strings ++ after
  | startsWith string start =>
    ∃ rest, string.value strings = start.value strings ++ rest
  | endsWith string ending =>
    ∃ rest, string.value strings = rest ++ ending.value strings
  | compareLength relation string count =>
    relation.Holds (string.value strings).length count
  | lengthBetween string low high =>
    low ≤ (string.value strings).length ∧
      (string.value strings).length ≤ high

end ConstraintScript

/-- The function of a relation compares lengths as integers. -/
theorem LengthRelation.onIntegers?_function (relation : LengthRelation) :
    ∃ compares, relation.function.onIntegers? = some compares ∧
      ∀ length count : Nat,
        compares length count ↔ relation.Holds length count := by
  cases relation with
  | equal => exact ⟨_, rfl, fun _ _ => Int.natCast_inj⟩
  | atMost | atLeast => exact ⟨_, rfl, fun _ _ => Int.ofNat_le⟩
  | below | above => exact ⟨_, rfl, fun _ _ => Int.ofNat_lt⟩

theorem StringScript.statement?_compareLength
    (strings : String → List CodePoint) (script : StringScript)
    (relation : LengthRelation) (count : Nat) :
    (script.made.compareLength relation.function count).statement? strings =
      some (relation.Holds (script.value strings).length count) := by
  obtain ⟨compares, related, means⟩ := relation.onIntegers?_function
  rw [StringTerm.compareLength, Term.statement?_of_onIntegers? strings related,
    integer?_length_made, Term.integer?_numeral]
  exact congrArg some (propext (means _ count))

/-- A relation between two strings is stated of the strings that are meant. -/
theorem StringScript.statement?_of_onStrings?
    (strings : String → List CodePoint) (first second : StringScript)
    {function : BinaryFunction}
    {relation : List CodePoint → List CodePoint → Prop}
    (related : function.onStrings? = some relation) :
    (Term.applyBinary function first.made.term second.made.term).statement?
        strings =
      some (relation (first.value strings) (second.value strings)) := by
  rw [Term.statement?_of_onStrings? strings related, string?_made, string?_made]
  rfl

/-- A constraint says of the strings what it is meant to say. -/
theorem ConstraintScript.statement?_made
    (strings : String → List CodePoint) (script : ConstraintScript) :
    script.made.statement? strings = some (script.Holds strings) := by
  cases script with
  | matchesPattern string pattern =>
      rw [made, StringTerm.matchesPattern, Term.statement?_strInRe,
        string.string?_made, pattern.language?_made]
      rfl
  | contains string needle =>
      rw [made, StringTerm.contains,
        string.statement?_of_onStrings? strings needle rfl]
      exact congrArg some (propext (exists₂_congr fun _ _ => eq_comm))
  | startsWith string start =>
      rw [made, StringTerm.startsWith,
        start.statement?_of_onStrings? strings string rfl]
      exact congrArg some (propext (exists_congr fun _ => eq_comm))
  | endsWith string ending =>
      rw [made, StringTerm.endsWith,
        ending.statement?_of_onStrings? strings string rfl]
      exact congrArg some (propext (exists_congr fun _ => eq_comm))
  | compareLength relation string count =>
      exact string.statement?_compareLength strings relation count
  | lengthBetween string low high =>
      have above := string.statement?_compareLength strings .atLeast low
      have below := string.statement?_compareLength strings .atMost high
      rw [made, StringTerm.lengthBetween, Term.statement?_conjunction]
      exact congrArg₂ (fun left right => left.bind (fun first =>
        right.map (first ∧ ·))) above below

/--
Classes, patterns, strings and constraints, however they are nested, mean by
the standard what their calls are meant to say, for every assignment of
strings to the variables.
-/
theorem string_constraints_mean_what_they_say
    (strings : String → List CodePoint) :
    (∀ script : ClassScript, ∃ language,
      script.made.term.language? strings = some language ∧
        ∀ string, string ∈ language ↔
          ∃ point, string = [point] ∧ script.Has point) ∧
    (∀ script : PatternScript, ∃ language,
      script.made.term.language? strings = some language ∧
        ∀ string, string ∈ language ↔ script.Matches string) ∧
    (∀ script : StringScript,
      script.made.term.string? strings = some (script.value strings) ∧
        script.made.length.integer? strings =
          some ((script.value strings).length : Int)) ∧
    ∀ script : ConstraintScript,
      script.made.statement? strings = some (script.Holds strings) := by
  refine ⟨?_, ?_, ?_, ?_⟩
  · intro script
    exact ⟨_, script.language?_made strings, fun _ => Iff.rfl⟩
  · intro script
    exact ⟨_, script.language?_made strings, fun _ => Iff.rfl⟩
  · intro script
    exact ⟨script.string?_made strings, script.integer?_length_made strings⟩
  · intro script
    exact script.statement?_made strings

end FlowWitness.Smt
