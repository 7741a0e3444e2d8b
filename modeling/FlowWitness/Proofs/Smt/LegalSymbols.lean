import FlowWitness.Proofs.Smt.SymbolText
import FlowWitness.Smt.StringConstraint

/-!
# Legal symbols

The symbols of SMT-LIB, by the rules of the standard.  A simple symbol is a
nonempty sequence of letters, digits and a few signs that begins with no digit
and is none of the words that the standard keeps for itself; a quoted symbol
stands between two bars, and holds neither a bar nor a backslash.

A declared name is written without bars if it has the characters of a simple
symbol, and escaped between bars otherwise.  The second is always a quoted
symbol.  The first is a simple symbol unless it is a reserved word, and those
have the characters of one: so a name is written as a legal symbol exactly if
it is not reserved.
-/

namespace FlowWitness.Smt

/-! ## The standard -/

/-- The words that no symbol may be. -/
def reservedWords : List String :=
  ["!", "_", "as", "let", "exists", "forall", "match", "par", "BINARY",
    "DECIMAL", "HEXADECIMAL", "NUMERAL", "STRING"]

/-- A letter, a digit or one of the signs of simple symbols. -/
def SimpleCharacter (character : Char) : Prop :=
  character.isAlphanum = true ∨ character ∈ "~!@$%^&*_-+=<>.?/".toList

/-- The text has the characters of a simple symbol, in the places for them. -/
structure SimplyWritten (text : List Char) : Prop where
  nonempty : text ≠ []
  characters : ∀ character ∈ text, SimpleCharacter character
  begins : ∀ first, text.head? = some first → first.isDigit = false

/-- The text is one symbol. -/
inductive LegalSymbol : List Char → Prop where
  | simple {text : List Char} (written : SimplyWritten text)
      (free : String.ofList text ∉ reservedWords) :
      LegalSymbol text
  | quoted {content : List Char} (noBar : '|' ∉ content)
      (noSlash : '\\' ∉ content) :
      LegalSymbol ('|' :: content ++ ['|'])

/-! ## Simple symbols -/

theorem isDigit_iff {character : Char} :
    character.isDigit = true ↔
      48 ≤ character.toNat ∧ character.toNat ≤ 57 := by
  delta Char.isDigit
  simp only [Bool.and_eq_true, decide_eq_true_eq, UInt32.le_iff_toNat_le]
  exact Iff.rfl

theorem isAlphanum_iff {character : Char} :
    character.isAlphanum = true ↔
      ((65 ≤ character.toNat ∧ character.toNat ≤ 90) ∨
        (97 ≤ character.toNat ∧ character.toNat ≤ 122)) ∨
      (48 ≤ character.toNat ∧ character.toNat ≤ 57) := by
  delta Char.isAlphanum Char.isAlpha Char.isUpper Char.isLower
  rw [Bool.or_eq_true, isDigit_iff]
  simp only [Bool.or_eq_true, Bool.and_eq_true, decide_eq_true_eq,
    UInt32.le_iff_toNat_le]
  exact Iff.rfl

theorem isSymbolCharacter_iff {character : Char} :
    isSymbolCharacter character = true ↔ SimpleCharacter character := by
  rw [SimpleCharacter, isAlphanum_iff]
  simp only [isSymbolCharacter, Bool.or_eq_true, Bool.and_eq_true,
    decide_eq_true_eq, List.contains_iff_mem]
  refine or_congr_left ?_
  omega

/-- What is not put between bars is written as a simple symbol. -/
theorem isSimpleSymbol_iff {text : List Char} :
    isSimpleSymbol text = true ↔ SimplyWritten text := by
  cases text with
  | nil =>
      exact iff_of_false Bool.false_ne_true
        (fun written => written.nonempty rfl)
  | cons first rest =>
      have begins : (48 ≤ first.toNat && first.toNat ≤ 57) = false ↔
          first.isDigit = false := by
        rw [← Bool.not_eq_true, ← Bool.not_eq_true, isDigit_iff]
        simp
      simp only [isSimpleSymbol, Bool.and_eq_true, Bool.not_eq_true',
        List.all_eq_true, isSymbolCharacter_iff, begins]
      constructor
      · rintro ⟨noDigit, characters⟩
        refine ⟨List.cons_ne_nil first rest, characters, ?_⟩
        rintro _ ⟨rfl⟩
        exact noDigit
      · rintro ⟨_, characters, begins⟩
        exact ⟨begins first rfl, characters⟩

/-! ## Reserved words -/

/-- Escaping changes no reserved word. -/
theorem escapeName_of_mem_reservedWords
    {word : String} (reserved : word ∈ reservedWords) :
    escapeName word.toList = word.toList ∧ SimplyWritten word.toList := by
  have kept : reservedWords.all (fun word =>
      escapeName word.toList == word.toList && isSimpleSymbol word.toList) =
        true := by decide
  have own := List.all_eq_true.mp kept word reserved
  rw [Bool.and_eq_true, beq_iff_eq, isSimpleSymbol_iff] at own
  exact own

/-- Escaping makes none either. -/
theorem escapeName_mem_reservedWords_iff {name : String} :
    String.ofList (escapeName name.toList) ∈ reservedWords ↔
      name ∈ reservedWords := by
  constructor
  · intro reserved
    have kept := (escapeName_of_mem_reservedWords reserved).1
    rw [String.toList_ofList] at kept
    have same := escapeName_injective kept
    rwa [same, String.ofList_toList] at reserved
  · intro reserved
    rwa [(escapeName_of_mem_reservedWords reserved).1, String.ofList_toList]

/-! ## Declared names -/

/-- A text without bars is a symbol only if it is a simple one. -/
theorem legalSymbol_iff_of_bar_not_mem
    {text : List Char} (noBar : '|' ∉ text) :
    LegalSymbol text ↔
      SimplyWritten text ∧ String.ofList text ∉ reservedWords := by
  constructor
  · rintro (⟨written, free⟩ | ⟨_, _⟩)
    · exact ⟨written, free⟩
    · exact absurd List.mem_cons_self noBar
  · rintro ⟨written, free⟩
    exact .simple written free

theorem legalSymbol_symbolCharacters_iff {name : String} :
    LegalSymbol (symbolCharacters name.toList) ↔ name ∉ reservedWords := by
  rw [symbolCharacters]
  by_cases simple : isSimpleSymbol (escapeName name.toList) = true
  · rw [if_pos simple, legalSymbol_iff_of_bar_not_mem
      (bar_not_mem_escapeName _), escapeName_mem_reservedWords_iff]
    exact and_iff_right (isSimpleSymbol_iff.mp simple)
  · rw [if_neg simple]
    refine iff_of_true (.quoted (bar_not_mem_escapeName _) ?_) ?_
    · exact fun member => (ne_of_mem_escapeName member).2 rfl
    · intro reserved
      obtain ⟨kept, written⟩ := escapeName_of_mem_reservedWords reserved
      rw [kept, isSimpleSymbol_iff] at simple
      exact simple written

/--
A declared symbol, of whatever name and signature, is written as a legal
symbol exactly if its name is not a reserved word.  A reserved word is written
as it is.
-/
theorem declared_symbols_legal_unless_reserved
    {symbol : FunctionSymbol} (declared : symbol.isBuiltin = false) :
    (LegalSymbol symbol.text.toList ↔ symbol.name ∉ reservedWords) ∧
      (symbol.name ∈ reservedWords → symbol.text = symbol.name) := by
  rw [FunctionSymbol.toList_text declared]
  refine ⟨legalSymbol_symbolCharacters_iff, fun reserved => ?_⟩
  obtain ⟨kept, written⟩ := escapeName_of_mem_reservedWords reserved
  apply String.toList_inj.mp
  rw [FunctionSymbol.toList_text declared, symbolCharacters, kept,
    if_pos (isSimpleSymbol_iff.mpr written)]

/-- A name with all that cannot stand in a simple symbol or between bars. -/
theorem awkward_name_legal :
    (FunctionSymbol.constant "0|let\\ %" .string).isBuiltin = false ∧
      (FunctionSymbol.constant "0|let\\ %" .string).text =
        "|0%7Clet%5C %25|" ∧
      LegalSymbol
        (FunctionSymbol.constant "0|let\\ %" .string).text.toList := by
  refine ⟨rfl, by decide, ?_⟩
  exact (declared_symbols_legal_unless_reserved rfl).1.mpr (by decide)

/-- A string variable that bears a reserved word is written as that word. -/
theorem reserved_name_written_bare :
    (StringTerm.var "let").term.text = "let" ∧ ¬ LegalSymbol "let".toList := by
  refine ⟨by decide, ?_⟩
  rw [legalSymbol_iff_of_bar_not_mem (by decide)]
  rintro ⟨_, free⟩
  exact free (by decide)

end FlowWitness.Smt
