import FlowWitness.Smt.Term

/-!
# Written symbols

A declared name is escaped and, unless that makes a simple symbol, put between
bars.  A solver takes `|s|` and `s` for the same symbol, so what tells two
written symbols apart is the text between the bars.  That text is the escaped
name in either case: escaping leaves no bar, so no name brings bars of its
own.  And escaping can be undone, so two names are never written as one
symbol.

The declared symbols of a term are those that are applied somewhere in it, and
these are what is collected from it.
-/

namespace FlowWitness.Smt

/-- The symbol that a text stands for: bars around it do not count. -/
def unbarred (text : String) : List Char :=
  match text.toList with
  | '|' :: rest =>
    if rest.getLast? = some '|' then rest.dropLast else '|' :: rest
  | other => other

example : unbarred "|a b|" = unbarred "a b" := by decide

/-- Undo the escaping of a name. -/
def unescapeName : List Char → List Char
  | '%' :: '2' :: '5' :: rest => '%' :: unescapeName rest
  | '%' :: '7' :: 'C' :: rest => '|' :: unescapeName rest
  | '%' :: '5' :: 'C' :: rest => '\\' :: unescapeName rest
  | other :: rest => other :: unescapeName rest
  | [] => []

theorem unescapeName_cons
    {letter : Char} (plain : letter ≠ '%') (rest : List Char) :
    unescapeName (letter :: rest) = letter :: unescapeName rest := by
  rw [unescapeName]
  all_goals
    intro other same
    exact (plain same).elim

theorem escapeCharacter_of_plain
    {letter : Char} (notMark : letter ≠ '%') (notBar : letter ≠ '|')
    (notSlash : letter ≠ '\\') :
    escapeCharacter letter = [letter] := by
  rw [escapeCharacter]
  · exact notMark
  · exact notBar
  · exact notSlash

/-- Escaping is undone letter by letter. -/
theorem unescapeName_escapeName (name : List Char) :
    unescapeName (escapeName name) = name := by
  induction name with
  | nil => rfl
  | cons letter rest induction =>
      change unescapeName (escapeCharacter letter ++ escapeName rest) = _
      by_cases mark : letter = '%'
      · subst letter
        simp [escapeCharacter, unescapeName, induction]
      by_cases bar : letter = '|'
      · subst letter
        simp [escapeCharacter, unescapeName, induction]
      by_cases slash : letter = '\\'
      · subst letter
        simp [escapeCharacter, unescapeName, induction]
      rw [escapeCharacter_of_plain mark bar slash, List.singleton_append,
        unescapeName_cons mark, induction]

theorem escapeName_injective
    {first second : List Char} (same : escapeName first = escapeName second) :
    first = second := by
  rw [← unescapeName_escapeName first, same, unescapeName_escapeName]

/-- Nothing escaped holds a bar or a backslash. -/
theorem ne_of_mem_escapeName
    {name : List Char} {letter : Char} (member : letter ∈ escapeName name) :
    letter ≠ '|' ∧ letter ≠ '\\' := by
  rcases List.mem_flatMap.mp member with ⟨original, _, inside⟩
  by_cases mark : original = '%'
  · subst original
    simp only [escapeCharacter, List.mem_cons, List.not_mem_nil, or_false]
      at inside
    rcases inside with rfl | rfl | rfl <;> decide
  by_cases bar : original = '|'
  · subst original
    simp only [escapeCharacter, List.mem_cons, List.not_mem_nil, or_false]
      at inside
    rcases inside with rfl | rfl | rfl <;> decide
  by_cases slash : original = '\\'
  · subst original
    simp only [escapeCharacter, List.mem_cons, List.not_mem_nil, or_false]
      at inside
    rcases inside with rfl | rfl | rfl <;> decide
  rw [escapeCharacter_of_plain mark bar slash, List.mem_singleton] at inside
  subst letter
  exact ⟨bar, slash⟩

theorem bar_not_mem_escapeName (name : List Char) : '|' ∉ escapeName name :=
  fun member => (ne_of_mem_escapeName member).1 rfl

/-- With bars or without, the symbol of a declared name is the escaped name. -/
theorem unbarred_symbolCharacters (name : List Char) :
    unbarred (String.ofList (symbolCharacters name)) = escapeName name := by
  rw [unbarred, String.toList_ofList, symbolCharacters]
  by_cases simple : isSimpleSymbol (escapeName name) = true
  · rw [if_pos simple]
    split
    · next rest shape =>
        have inside := bar_not_mem_escapeName name
        rw [shape] at inside
        simp at inside
    · rfl
  · rw [if_neg simple]
    simp

theorem unbarred_text_constant (name : String) (sort : SmtSort) :
    unbarred (Term.constant name sort).text = escapeName name.toList :=
  unbarred_symbolCharacters name.toList

/-- Constants that are written as one symbol have one name. -/
theorem name_eq_of_unbarred_text_eq
    {first second : String} {firstSort secondSort : SmtSort}
    (same : unbarred (Term.constant first firstSort).text =
      unbarred (Term.constant second secondSort).text) :
    first = second := by
  rw [unbarred_text_constant, unbarred_text_constant] at same
  exact String.toList_inj.mp (escapeName_injective same)

/-! ## Symbols before a blank -/

/-- The symbol that a text begins with: up to its second bar, or a blank. -/
def leadingSymbol : List Char → List Char
  | '|' :: rest => rest.takeWhile (fun letter => letter != '|')
  | other => other.takeWhile (fun letter => letter != ' ')

theorem symbolCharacter_of_isSimpleSymbol
    {letters : List Char} (simple : isSimpleSymbol letters = true)
    {letter : Char} (member : letter ∈ letters) :
    isSymbolCharacter letter = true := by
  cases letters with
  | nil => simp at member
  | cons first rest =>
      simp only [isSimpleSymbol, Bool.and_eq_true] at simple
      exact List.all_eq_true.mp simple.2 letter member

/-- What follows the blank behind a symbol has no part in it. -/
theorem leadingSymbol_symbolCharacters (name rest : List Char) :
    leadingSymbol (symbolCharacters name ++ ' ' :: rest) = escapeName name := by
  rw [symbolCharacters]
  by_cases simple : isSimpleSymbol (escapeName name) = true
  · rw [if_pos simple]
    have plain : ∀ letter ∈ escapeName name, (letter != ' ') = true := by
      intro letter member
      rw [bne_iff_ne]
      rintro rfl
      exact absurd (symbolCharacter_of_isSimpleSymbol simple member) (by decide)
    unfold leadingSymbol
    split
    · next shape =>
        have inside := bar_not_mem_escapeName name
        cases letters : escapeName name with
        | nil => simp [letters] at shape
        | cons first others =>
            rw [letters, List.cons_append, List.cons.injEq] at shape
            simp [letters, shape.1] at inside
    · rw [List.takeWhile_append_of_pos plain]
      simp
  · rw [if_neg simple]
    have barless : ∀ letter ∈ escapeName name, (letter != '|') = true := by
      intro letter member
      rw [bne_iff_ne]
      rintro rfl
      exact bar_not_mem_escapeName name member
    simp only [leadingSymbol, List.cons_append, List.append_assoc]
    rw [List.takeWhile_append_of_pos barless]
    simp

theorem FunctionSymbol.toList_text
    {symbol : FunctionSymbol} (declared : symbol.isBuiltin = false) :
    symbol.text.toList = symbolCharacters symbol.name.toList := by
  rw [text, declared, if_neg Bool.false_ne_true, String.toList_ofList]

/-- The declared symbol before a blank tells its name. -/
theorem FunctionSymbol.name_eq_of_append_eq
    {first second : FunctionSymbol} (firstDeclared : first.isBuiltin = false)
    (secondDeclared : second.isBuiltin = false) {behind other : List Char}
    (same : first.text.toList ++ ' ' :: behind =
      second.text.toList ++ ' ' :: other) :
    first.name = second.name := by
  rw [toList_text firstDeclared, toList_text secondDeclared] at same
  have leading := congrArg leadingSymbol same
  rw [leadingSymbol_symbolCharacters, leadingSymbol_symbolCharacters] at leading
  exact String.toList_inj.mp (escapeName_injective leading)

/-! ## Symbols of a term -/

namespace Term

/-- The symbol is applied somewhere in the term. -/
inductive Mentions (symbol : FunctionSymbol) : Term → Prop where
  | here {term : Term} (applied : term.function? = some symbol) :
      Mentions symbol term
  | inside {term argument : Term} (part : argument ∈ term.arguments)
      (mentioned : Mentions symbol argument) :
      Mentions symbol term

theorem mentions_iff {symbol : FunctionSymbol} {term : Term} :
    term.Mentions symbol ↔ term.function? = some symbol ∨
      ∃ argument ∈ term.arguments, Mentions symbol argument := by
  constructor
  · rintro (applied | ⟨part, mentioned⟩)
    · exact Or.inl applied
    · exact Or.inr ⟨_, part, mentioned⟩
  · rintro (applied | ⟨argument, part, mentioned⟩)
    · exact .here applied
    · exact .inside part mentioned

theorem mem_noteSymbol
    {symbol noted : FunctionSymbol} {seen : List FunctionSymbol} :
    symbol ∈ noteSymbol noted seen ↔
      symbol ∈ seen ∨ (symbol.isBuiltin = false ∧ noted = symbol) := by
  rw [noteSymbol]
  split
  · next known =>
      simp only [Bool.or_eq_true, List.contains_eq_mem, decide_eq_true_eq]
        at known
      refine ⟨Or.inl, ?_⟩
      rintro (old | ⟨declared, rfl⟩)
      · exact old
      · exact known.resolve_left (by simp [declared])
  · next new =>
      simp only [Bool.or_eq_true, not_or, Bool.not_eq_true] at new
      rw [List.mem_append, List.mem_singleton]
      refine or_congr_right ⟨?_, fun same => same.2.symm⟩
      rintro rfl
      exact ⟨new.1, rfl⟩

/-- The collector finds the declared symbols of a term, wherever they stand. -/
theorem mem_collectDeclarations_iff
    {symbol : FunctionSymbol} {term : Term} {seen : List FunctionSymbol} :
    symbol ∈ term.collectDeclarations seen ↔
      symbol ∈ seen ∨ (symbol.isBuiltin = false ∧ Mentions symbol term) := by
  induction term generalizing seen with
  | bool value =>
      rw [collectDeclarations, mentions_iff]
      simp [function?, arguments]
  | bitVec value width =>
      rw [collectDeclarations, mentions_iff]
      simp [function?, arguments]
  | nullary noted =>
      rw [collectDeclarations, mem_noteSymbol, mentions_iff]
      simp [function?, arguments]
  | unary noted argument onArgument =>
      rw [collectDeclarations, onArgument, mem_noteSymbol,
        @mentions_iff _ (unary noted argument)]
      simp only [function?, arguments, Option.some.injEq, List.mem_singleton,
        exists_eq_left, and_or_left, or_assoc]
  | binary noted first second onFirst onSecond =>
      rw [collectDeclarations, onSecond, onFirst, mem_noteSymbol,
        @mentions_iff _ (binary noted first second)]
      simp [function?, arguments, and_or_left, or_assoc]
  | ternary noted first second third onFirst onSecond onThird =>
      rw [collectDeclarations, onThird, onSecond, onFirst, mem_noteSymbol,
        @mentions_iff _ (ternary noted first second third)]
      simp [function?, arguments, and_or_left, or_assoc]

theorem mem_declarations {symbol : FunctionSymbol} {term : Term} :
    symbol ∈ term.declarations ↔
      symbol.isBuiltin = false ∧ Mentions symbol term := by
  rw [declarations, mem_collectDeclarations_iff]
  simp

theorem isBuiltin_of_mem_declarations
    {symbol : FunctionSymbol} {term : Term}
    (member : symbol ∈ term.declarations) :
    symbol.isBuiltin = false :=
  (mem_declarations.mp member).1

end Term

end FlowWitness.Smt
