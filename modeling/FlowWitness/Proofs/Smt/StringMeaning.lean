import FlowWitness.Proofs.Smt.LiteralValues
import FlowWitness.Proofs.Smt.Semantics
import FlowWitness.Smt.StringConstraint
import Mathlib.Computability.Language

/-!
# The meaning of string terms

Strings are sequences of code points, and a text stands for a string by the
standard's rules: between the quotes of a literal a doubled quote is one
quote, an escape sequence stands for the code point that it spells, and every
other character for itself.  A term of the string sort has a string and a term
of the language sort a regular language, once the declared constants have
theirs; any other term has neither.

Quotes are all that a literal doubles, so it keeps its text up to the escape
sequences in it: a text is meant word for word exactly if it holds none.
-/

namespace FlowWitness.Smt

open FlowWitness.Text
open scoped Computability

/-! ## Code points -/

/-- A character of a string: a code point of the first three planes. -/
abbrev CodePoint : Type := Fin 0x30000

/-- The code point with the given number. -/
def CodePoint.ofNat? (code : Nat) : Option CodePoint :=
  if small : code < 0x30000 then some ⟨code, small⟩ else none

theorem CodePoint.ofNat?_eq_some_iff {code : Nat} {point : CodePoint} :
    ofNat? code = some point ↔ code = point.val := by
  rw [ofNat?]
  split
  · simp [Fin.ext_iff]
  · next large => simp; omega

/-- The points are the characters of the text, one for one. -/
def Verbatim (text : List Char) (points : List CodePoint) : Prop :=
  points.map Fin.val = text.map Char.toNat

instance (text : List Char) (points : List CodePoint) :
    Decidable (Verbatim text points) :=
  inferInstanceAs (Decidable (points.map Fin.val = text.map Char.toNat))

/-! ## Escape sequences -/

/--
An escape sequence with its code point: four hexadecimal digits after `\u`, or
one to five of them in braces.
-/
inductive Escape : List Char → CodePoint → Prop where
  | four {digits : List Char} {point : CodePoint} (count : digits.length = 4)
      (spelled : readDigits 16 digits = some point.val) :
      Escape ('\\' :: 'u' :: digits) point
  | braced {digits : List Char} {point : CodePoint} (count : digits.length ≤ 5)
      (spelled : readDigits 16 digits = some point.val) :
      Escape ('\\' :: 'u' :: '{' :: (digits ++ ['}'])) point

/-- An escape sequence occurs in the text. -/
def Escaped (text : List Char) : Prop :=
  ∃ before sequence after point,
    text = before ++ (sequence ++ after) ∧ Escape sequence point

/-- The code point that hexadecimal digits spell. -/
def codePoint? (digits : List Char) : Option CodePoint :=
  (readDigits 16 digits).bind CodePoint.ofNat?

/-- The code point of four digits, and the text after them. -/
def fourDigits? (text : List Char) : Option (CodePoint × List Char) :=
  if text.length < 4 then none
  else (codePoint? (text.take 4)).map (fun point => (point, text.drop 4))

/-- The code point of the digits before a brace, and the text after it. -/
def bracedDigits? (text : List Char) : Option (CodePoint × List Char) :=
  let digits := text.takeWhile (fun character => character != '}')
  match text.dropWhile (fun character => character != '}') with
  | [] => none
  | _ :: after =>
    if digits.length ≤ 5 then
      (codePoint? digits).map (fun point => (point, after))
    else none

/-- The code point of an escape sequence at the front, and the text after it. -/
def escape? : List Char → Option (CodePoint × List Char)
  | '\\' :: 'u' :: '{' :: rest => bracedDigits? rest
  | '\\' :: 'u' :: rest => fourDigits? rest
  | _ => none

theorem codePoint?_eq_some_iff {digits : List Char} {point : CodePoint} :
    codePoint? digits = some point ↔
      readDigits 16 digits = some point.val := by
  simp [codePoint?, Option.bind_eq_some_iff, CodePoint.ofNat?_eq_some_iff]

theorem fourDigits?_eq_some_iff
    {text after : List Char} {point : CodePoint} :
    fourDigits? text = some (point, after) ↔
      ∃ digits, digits.length = 4 ∧
        readDigits 16 digits = some point.val ∧ text = digits ++ after := by
  rw [fourDigits?]
  split
  · next short =>
      constructor
      · intro found
        cases found
      · rintro ⟨digits, count, _, rfl⟩
        rw [List.length_append, count] at short
        omega
  · next long =>
      simp only [Option.map_eq_some_iff, Prod.mk.injEq, codePoint?_eq_some_iff]
      constructor
      · rintro ⟨_, spelled, rfl, rfl⟩
        refine ⟨text.take 4, ?_, spelled, (List.take_append_drop 4 text).symm⟩
        exact List.length_take_of_le (Nat.le_of_not_lt long)
      · rintro ⟨digits, count, spelled, rfl⟩
        refine ⟨point, ?_, rfl, ?_⟩
        · rw [List.take_left' count]
          exact spelled
        · exact List.drop_left' count

theorem bracedDigits?_eq_some_iff
    {text after : List Char} {point : CodePoint} :
    bracedDigits? text = some (point, after) ↔
      ∃ digits, digits.length ≤ 5 ∧
        readDigits 16 digits = some point.val ∧
        text = digits ++ '}' :: after := by
  rw [bracedDigits?]
  constructor
  · intro found
    have whole : text.takeWhile (· != '}') ++ text.dropWhile (· != '}') =
        text := List.takeWhile_append_dropWhile
    have stopped := List.head?_dropWhile_not (· != '}') text
    cases rest : text.dropWhile (· != '}') with
    | nil => simp [rest] at found
    | cons brace others =>
        have closes : brace = '}' := by simpa [rest] using stopped
        rw [rest, closes] at whole
        simp only [rest] at found
        split at found
        · next short =>
            rw [Option.map_eq_some_iff] at found
            obtain ⟨_, spelled, same⟩ := found
            cases same
            exact ⟨_, short, codePoint?_eq_some_iff.mp spelled, whole.symm⟩
        · cases found
  · rintro ⟨digits, short, spelled, rfl⟩
    have inside : ∀ digit ∈ digits, (digit != '}') = true := by
      intro digit member
      have range := alphanumeric_of_readDigitsFrom
        (readDigits_eq_some_iff.mp spelled).2 digit member
      rw [bne_iff_ne]
      rintro rfl
      revert range
      decide
    rw [List.takeWhile_append_of_pos inside,
      List.dropWhile_append_of_pos inside]
    simp [short, codePoint?_eq_some_iff.mpr spelled]

/-- The reader finds the escape sequences at the front of a text. -/
theorem escape?_eq_some_iff
    {text after : List Char} {point : CodePoint} :
    escape? text = some (point, after) ↔
      ∃ sequence, Escape sequence point ∧ text = sequence ++ after := by
  constructor
  · intro found
    unfold escape? at found
    split at found
    · obtain ⟨digits, short, spelled, rfl⟩ :=
        bracedDigits?_eq_some_iff.mp found
      exact ⟨_, .braced short spelled, by simp⟩
    · obtain ⟨digits, count, spelled, rfl⟩ := fourDigits?_eq_some_iff.mp found
      exact ⟨_, .four count spelled, rfl⟩
    · cases found
  · rintro ⟨_, escape, rfl⟩
    cases escape with
    | @four digits _ count spelled =>
        unfold escape?
        split
        · next rest same =>
            -- A brace is no digit, so four digits are never read as braced.
            simp only [List.cons_append, List.cons.injEq, true_and] at same
            cases digits with
            | nil => cases count
            | cons first others =>
                rw [List.cons_append, List.cons.injEq] at same
                obtain ⟨rfl, _⟩ := same
                exact absurd rfl (head_ne_of_readDigits spelled rfl)
        · next rest _ same =>
            simp only [List.cons_append, List.cons.injEq, true_and] at same
            exact fourDigits?_eq_some_iff.mpr
              ⟨digits, count, spelled, same.symm⟩
        · next other =>
            exact absurd rfl (other _)
    | @braced digits _ count spelled =>
        change bracedDigits? ((digits ++ ['}']) ++ after) = _
        exact bracedDigits?_eq_some_iff.mpr ⟨digits, count, spelled, by simp⟩

theorem Escape.two_le_length
    {sequence : List Char} {point : CodePoint}
    (escape : Escape sequence point) : 2 ≤ sequence.length := by
  cases escape <;> simp

theorem length_lt_of_escape?
    {text after : List Char} {point : CodePoint}
    (found : escape? text = some (point, after)) :
    after.length + 2 ≤ text.length := by
  obtain ⟨sequence, escape, rfl⟩ := escape?_eq_some_iff.mp found
  have two := escape.two_le_length
  rw [List.length_append]
  omega

theorem not_escaped_nil : ¬ Escaped [] := by
  rintro ⟨before, sequence, after, point, same, escape⟩
  have two := escape.two_le_length
  have none := congrArg List.length same
  simp only [List.length_nil, List.length_append] at none
  omega

theorem escaped_cons {first : Char} {rest : List Char} :
    Escaped (first :: rest) ↔
      (escape? (first :: rest)).isSome = true ∨ Escaped rest := by
  constructor
  · rintro ⟨before, sequence, after, point, same, escape⟩
    cases before with
    | nil =>
        left
        rw [escape?_eq_some_iff.mpr ⟨sequence, escape, same⟩]
        rfl
    | cons head others =>
        right
        rw [List.cons_append, List.cons.injEq] at same
        exact ⟨others, sequence, after, point, same.2, escape⟩
  · rintro (found | ⟨before, sequence, after, point, rfl, escape⟩)
    · obtain ⟨⟨point, after⟩, found⟩ := Option.isSome_iff_exists.mp found
      obtain ⟨sequence, escape, same⟩ := escape?_eq_some_iff.mp found
      exact ⟨[], sequence, after, point, same, escape⟩
    · exact ⟨first :: before, sequence, after, point, rfl, escape⟩

instance decidableEscaped : (text : List Char) → Decidable (Escaped text)
  | [] => isFalse not_escaped_nil
  | _ :: rest =>
    have := decidableEscaped rest
    decidable_of_iff _ escaped_cons.symm

/-! ## Texts and their strings -/

/--
The string that a text stands for: the code points of its escape sequences,
from the front, and its other characters.  A text with a character that is no
code point stands for none.
-/
def unescape : List Char → Option (List CodePoint)
  | [] => some []
  | first :: rest =>
    match _ : escape? (first :: rest) with
    | some (point, after) => (unescape after).map (point :: ·)
    | none =>
      (CodePoint.ofNat? first.toNat).bind (fun point =>
        (unescape rest).map (point :: ·))
termination_by text => text.length
decreasing_by
  · have shorter := length_lt_of_escape? ‹escape? _ = some _›
    omega
  · exact Nat.lt_succ_self rest.length

@[simp]
theorem unescape_nil : unescape [] = some [] := by
  rw [unescape]

theorem unescape_of_escape?
    {text after : List Char} {point : CodePoint}
    (found : escape? text = some (point, after)) :
    unescape text = (unescape after).map (point :: ·) := by
  cases text with
  | nil => cases found
  | cons first rest =>
      rw [unescape]
      split
      · next same => rw [found] at same; cases same; rfl
      · next same => rw [found] at same; cases same

/-- A text of code points stands for a string. -/
theorem exists_unescape
    {text : List Char}
    (inRange : ∀ character ∈ text, character.toNat < 0x30000) :
    ∃ points, unescape text = some points := by
  fun_induction unescape text with
  | case1 => exact ⟨[], rfl⟩
  | case2 first rest point after found induction =>
      obtain ⟨sequence, _, same⟩ := escape?_eq_some_iff.mp found
      rw [same, List.forall_mem_append] at inRange
      obtain ⟨points, unescaped⟩ := induction inRange.2
      rw [unescaped]
      exact ⟨_, rfl⟩
  | case3 first rest absent induction =>
      rw [List.forall_mem_cons] at inRange
      obtain ⟨points, unescaped⟩ := induction inRange.2
      rw [CodePoint.ofNat?, dif_pos inRange.1, unescaped]
      exact ⟨_, rfl⟩

/-- Escape sequences make the string shorter than the text. -/
theorem length_of_unescape
    {text : List Char} {points : List CodePoint}
    (unescaped : unescape text = some points) :
    points.length ≤ text.length ∧
      (Escaped text → points.length < text.length) := by
  fun_induction unescape text generalizing points with
  | case1 =>
      cases unescaped
      exact ⟨Nat.le_refl 0, fun escaped => absurd escaped not_escaped_nil⟩
  | case2 first rest point after found induction =>
      obtain ⟨others, tail, rfl⟩ := Option.map_eq_some_iff.mp unescaped
      have shorter := length_lt_of_escape? found
      have least := (induction tail).1
      rw [List.length_cons]
      omega
  | case3 first rest absent induction =>
      rw [escaped_cons, absent]
      obtain ⟨point, _, unescaped⟩ := Option.bind_eq_some_iff.mp unescaped
      obtain ⟨others, tail, rfl⟩ := Option.map_eq_some_iff.mp unescaped
      simpa using induction tail

/-- A text without escape sequences stands for itself. -/
theorem verbatim_of_not_escaped
    {text : List Char} {points : List CodePoint}
    (unescaped : unescape text = some points) (plain : ¬ Escaped text) :
    Verbatim text points := by
  fun_induction unescape text generalizing points with
  | case1 =>
      cases unescaped
      rfl
  | case2 first rest point after found induction =>
      exact absurd (escaped_cons.mpr (Or.inl (by rw [found]; rfl))) plain
  | case3 first rest absent induction =>
      have fewer : ¬ Escaped rest := fun escaped =>
        plain (escaped_cons.mpr (Or.inr escaped))
      obtain ⟨point, own, unescaped⟩ := Option.bind_eq_some_iff.mp unescaped
      obtain ⟨others, tail, rfl⟩ := Option.map_eq_some_iff.mp unescaped
      rw [CodePoint.ofNat?_eq_some_iff] at own
      have verbatim := induction tail fewer
      rw [Verbatim] at verbatim ⊢
      rw [List.map_cons, List.map_cons, verbatim, own]

theorem verbatim_iff_not_escaped
    {text : List Char} {points : List CodePoint}
    (unescaped : unescape text = some points) :
    Verbatim text points ↔ ¬ Escaped text := by
  refine ⟨fun verbatim escaped => ?_, verbatim_of_not_escaped unescaped⟩
  have shorter := (length_of_unescape unescaped).2 escaped
  have same := congrArg List.length verbatim
  simp only [List.length_map] at same
  omega

/-! ## Literals -/

/--
The characters up to the closing quote, which is the last one; a doubled quote
is one quote.
-/
def content? : List Char → Option (List Char)
  | [] => none
  | ['"'] => some []
  | '"' :: '"' :: rest => (content? rest).map ('"' :: ·)
  | '"' :: _ :: _ => none
  | other :: rest => (content? rest).map (other :: ·)

/-- The string that the text of a literal stands for. -/
def literalString? : List Char → Option (List CodePoint)
  | '"' :: rest => (content? rest).bind unescape
  | _ => none

theorem content?_cons_of_ne
    {other : Char} (rest : List Char) (plain : other ≠ '"') :
    content? (other :: rest) = (content? rest).map (other :: ·) := by
  rw [content?] <;> simp [plain]

/-- Doubling the quotes of a text keeps it. -/
theorem content?_doubleQuotes (text : List Char) :
    content? (Term.doubleQuotes text ++ ['"']) = some text := by
  fun_induction Term.doubleQuotes text with
  | case1 => rfl
  | case2 rest induction =>
      change (content? (Term.doubleQuotes rest ++ ['"'])).map _ = _
      rw [induction]
      rfl
  | case3 other rest plain induction =>
      rw [List.cons_append, content?_cons_of_ne _ plain, induction]
      rfl

theorem literalString?_doubleQuotes (text : List Char) :
    literalString? ('"' :: Term.doubleQuotes text ++ ['"']) =
      unescape text := by
  rw [List.cons_append, literalString?, content?_doubleQuotes]
  rfl

theorem literalString?_text (text : String) :
    literalString? (Term.stringLiteral text).text.toList =
      unescape text.toList := by
  have spelled : (Term.stringLiteral text).text.toList =
      '"' :: Term.doubleQuotes text.toList ++ ['"'] := String.toList_ofList
  rw [spelled, literalString?_doubleQuotes]

/-! ## Strings and languages of terms -/

/-- The one-character strings between two strings of one character each. -/
def rangeLanguage : List CodePoint → List CodePoint → Language CodePoint
  | [low], [high] =>
    {string | ∃ point, string = [point] ∧ low ≤ point ∧ point ≤ high}
  | _, _ => 0

namespace Term

/-- The string of a term, if it has one. -/
def string? (strings : String → List CodePoint) :
    Term → Option (List CodePoint)
  | .nullary symbol =>
    if symbol.isBuiltin then literalString? symbol.name.toList
    else if symbol.result = .string then some (strings symbol.name)
    else none
  | .binary symbol first second =>
    if symbol.isBuiltin &&
        BinaryFunction.ofName? symbol.name == some .strConcat then
      (first.string? strings).bind (fun front =>
        (second.string? strings).map (front ++ ·))
    else none
  | _ => none

/-- The language of a term, if it has one. -/
def language? (strings : String → List CodePoint) :
    Term → Option (Language CodePoint)
  | .nullary symbol =>
    if symbol.isBuiltin then
      match symbol.name with
      | "re.allchar" => some {string | string.length = 1}
      | "re.none" => some 0
      | _ => none
    else none
  | .unary symbol argument =>
    if symbol.isBuiltin then
      match UnaryFunction.ofName? symbol.name with
      | some .strToRe => (argument.string? strings).map ({·})
      | some .reStar => (argument.language? strings).map (·∗)
      | some .rePlus =>
        (argument.language? strings).map (fun once => once * once∗)
      | some .reOpt => (argument.language? strings).map (1 + ·)
      | _ => none
    else none
  | .binary symbol first second =>
    if symbol.isBuiltin then
      match BinaryFunction.ofName? symbol.name with
      | some .reRange =>
        (first.string? strings).bind (fun low =>
          (second.string? strings).map (rangeLanguage low))
      | some .reUnion =>
        (first.language? strings).bind (fun left =>
          (second.language? strings).map (left + ·))
      | some .reConcat =>
        (first.language? strings).bind (fun left =>
          (second.language? strings).map (left * ·))
      | _ => none
    else none
  | _ => none

theorem string?_builtin
    (strings : String → List CodePoint) (name : String) (sort : SmtSort) :
    (builtin name sort).string? strings = literalString? name.toList := by
  rw [builtin, string?]
  exact if_pos rfl

@[simp]
theorem string?_stringLiteral
    (strings : String → List CodePoint) (text : String) :
    (stringLiteral text).string? strings = unescape text.toList := by
  rw [stringLiteral, string?_builtin, String.toList_ofList,
    literalString?_doubleQuotes]

@[simp]
theorem language?_strToRe
    (strings : String → List CodePoint) (argument : Term) :
    (applyUnary .strToRe argument).language? strings =
      (argument.string? strings).map ({·}) := by
  simp [applyUnary, language?, FunctionSymbol.isBuiltin]

end Term

/-- The language of a literal pattern is the string of its text. -/
theorem Pattern.language?_literal
    (strings : String → List CodePoint) {text : String}
    {points : List CodePoint}
    (unescaped : unescape text.toList = some points) :
    (literal text).term.language? strings = some {points} := by
  rw [literal, Term.language?_strToRe, Term.string?_stringLiteral, unescaped]
  rfl

/--
The literal of a text of code points stands for a string, and the literal
pattern matches that string only.  The string is the text, word for word,
exactly if no escape sequence occurs in the text.
-/
theorem literals_are_verbatim_up_to_escapes
    (text : String)
    (inRange : ∀ character ∈ text.toList, character.toNat < 0x30000) :
    ∃ points,
      literalString? (Term.stringLiteral text).text.toList = some points ∧
      (∀ strings, (Pattern.literal text).term.language? strings =
        some {points}) ∧
      (Verbatim text.toList points ↔ ¬ Escaped text.toList) := by
  obtain ⟨points, unescaped⟩ := exists_unescape inRange
  refine ⟨points, ?_, ?_, verbatim_iff_not_escaped unescaped⟩
  · rw [literalString?_text, unescaped]
  · exact fun strings => Pattern.language?_literal strings unescaped

/-- A backslash and the letter of an escape sequence, without its digits. -/
theorem user_path_is_verbatim :
    ∃ points, literalString? (Term.stringLiteral "C:\\users").text.toList =
        some points ∧ Verbatim "C:\\users".toList points := by
  have small : ("C:\\users".toList.all
      (fun character => decide (character.toNat < 0x30000))) = true := by
    decide
  obtain ⟨points, denoted, _, verbatim⟩ :=
    literals_are_verbatim_up_to_escapes "C:\\users" (by
      simpa only [List.all_eq_true, decide_eq_true_eq] using small)
  exact ⟨points, denoted, verbatim.mpr (by decide)⟩

/-- The text of an escape sequence is matched as the letter that it spells. -/
theorem escape_matched_as_letter :
    literalString? (Term.stringLiteral "\\u\x7b41\x7d").text.toList =
        some [0x41] ∧
      (∀ strings,
        (Pattern.literal "\\u\x7b41\x7d").term.language? strings =
          some {[0x41]}) ∧
      ¬ Verbatim "\\u\x7b41\x7d".toList [0x41] := by
  have found : escape? "\\u\x7b41\x7d".toList = some (0x41, []) := by decide
  have unescaped : unescape "\\u\x7b41\x7d".toList = some [0x41] := by
    rw [unescape_of_escape? found, unescape_nil]
    rfl
  refine ⟨?_, ?_, by decide⟩
  · rw [literalString?_text, unescaped]
  · exact fun strings => Pattern.language?_literal strings unescaped

end FlowWitness.Smt
