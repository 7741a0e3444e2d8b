import FlowWitness.Proofs.Smt.Spelling
import FlowWitness.Proofs.Smt.SymbolText
import Mathlib.Data.List.Forall2

/-!
# Written terms read back

A term is written for a solver and could be read again.  What is read is the
tree of the term: an application is the list of its function and its
arguments, a declared symbol is the atom of its escaped name, a string literal
is its text.  So whatever characters a name or a text holds, none of them is
taken for a part of the command around it.

A text is legible as a tree if it is scanned as the tree wherever it stands,
as long as a blank, a closing parenthesis or nothing comes next.  Legible
texts make legible lists.
-/

namespace FlowWitness.Smt

open FlowWitness.Text

/-! ## Legible texts -/

/-- What comes next cannot be taken for a part of the expression before it. -/
def Breaks (rest : List Char) : Prop :=
  ∀ character ∈ rest.head?, isBlank character = true ∨ character = ')'

/-- The text is scanned as the tree, whatever comes after a break. -/
def Legible (text : List Char) (tree : SExpr) : Prop :=
  ∀ rest, Breaks rest →
    spelled .between (text ++ rest) = tree.tokens ++ spelled .between rest

theorem breaks_nil : Breaks [] := by
  simp [Breaks]

theorem breaks_space (rest : List Char) : Breaks (' ' :: rest) := by
  simp [Breaks, show isBlank ' ' = true by decide]

theorem breaks_closing (rest : List Char) : Breaks (')' :: rest) := by
  simp [Breaks]

theorem Breaks.endsAtom {rest : List Char} (breaks : Breaks rest) :
    ∀ character ∈ rest.head?, ScanState.endsAtom character = true := by
  intro character next
  rcases breaks character next with blank | rfl
  · simp [ScanState.endsAtom, blank]
  · decide

theorem Breaks.head?_ne_quote {rest : List Char} (breaks : Breaks rest) :
    rest.head? ≠ some '"' := by
  intro next
  rcases breaks '"' next with blank | same
  · exact absurd blank (by decide)
  · exact absurd same (by decide)

theorem Legible.read {text : String} {tree : SExpr}
    (legible : Legible text.toList tree) : SExpr.read text = .ok tree := by
  rw [SExpr.read_eq_ok_iff]
  have whole := legible [] breaks_nil
  rw [List.append_nil] at whole
  rw [whole]
  exact List.append_nil _

/-! ## Atoms -/

/-- A run of plain characters is one atom. -/
theorem legible_plain
    {characters : List Char} (nonempty : characters ≠ [])
    (plain : ∀ character ∈ characters, ScanState.endsAtom character = false) :
    Legible characters (.atom (String.ofList characters)) := by
  intro rest breaks
  rw [SExpr.tokens, String.toList_ofList]
  exact spelled_atom nonempty plain breaks.endsAtom

/-- Is the text an atom as it stands? -/
def isWord (text : String) : Bool :=
  text != "" &&
    text.toList.all (fun character => !ScanState.endsAtom character)

theorem isWord_iff {text : String} :
    isWord text = true ↔ text ≠ "" ∧
      ∀ character ∈ text.toList, ScanState.endsAtom character = false := by
  simp [isWord]

theorem legible_word {text : String} (word : isWord text = true) :
    Legible text.toList (.atom text) := by
  rcases isWord_iff.mp word with ⟨nonempty, plain⟩
  have legible := legible_plain (by simpa using nonempty) plain
  rwa [String.ofList_toList] at legible

/-- A text between bars is one atom if it holds no bar. -/
theorem legible_barred {characters : List Char} (unbarred : '|' ∉ characters) :
    Legible ('|' :: characters ++ ['|'])
      (.atom (String.ofList characters)) := by
  intro rest _
  rw [SExpr.tokens, String.toList_ofList, List.append_assoc, List.cons_append]
  exact spelled_symbol rest unbarred

/-! ## String literals -/

/-- A text in quotes, with its own quotes doubled, is that text. -/
theorem legible_quoted (text : String) :
    Legible ('"' :: Term.doubleQuotes text.toList ++ ['"']) (.str text) := by
  intro rest breaks
  rw [SExpr.tokens, List.append_assoc, List.cons_append]
  exact spelled_literal text.toList breaks.head?_ne_quote

/-! ## Lists -/

theorem spelled_items
    {texts : List (List Char)} {trees : List SExpr}
    (legible : List.Forall₂ Legible texts trees) (rest : List Char) :
    spelled .between ([' '].intercalate texts ++ ')' :: rest) =
      SExpr.itemsTokens trees ++ .closing :: spelled .between rest := by
  induction legible with
  | nil => exact spelled_closing rest
  | @cons text tree texts trees first others induction =>
      cases others with
      | nil =>
          have item := first _ (breaks_closing rest)
          rw [spelled_closing] at item
          simpa [List.intercalate, SExpr.itemsTokens] using item
      | @cons second _ more _ _ _ =>
          have item := first _ (breaks_space
            ([' '].intercalate (second :: more) ++ ')' :: rest))
          rw [spelled_of_blank (by decide), induction] at item
          rw [SExpr.itemsTokens, List.append_assoc, ← item]
          simp [List.intercalate]

/-- Legible texts between parentheses are a legible list. -/
theorem legible_list
    {texts : List (List Char)} {trees : List SExpr}
    (legible : List.Forall₂ Legible texts trees) :
    Legible ('(' :: ([' '].intercalate texts ++ [')'])) (.list trees) := by
  intro rest _
  rw [List.cons_append, List.append_assoc, spelled_opening]
  have inside := spelled_items legible rest
  simpa [SExpr.tokens] using inside

/-! ## Numbers, symbols and sorts -/

theorem not_endsAtom_of_code
    {character : Char}
    (visible : 33 ≤ character.toNat) (ascii : character.toNat ≤ 126)
    (notQuote : character ≠ '"') (notBar : character ≠ '|')
    (notOpening : character ≠ '(') (notClosing : character ≠ ')') :
    ScanState.endsAtom character = false := by
  have notBlank : isBlank character = false := by
    simp only [isBlank, Bool.or_eq_false_iff, Bool.and_eq_false_iff,
      decide_eq_false_iff_not, beq_eq_false_iff_ne]
    omega
  simp [ScanState.endsAtom, notBlank, notQuote, notBar, notOpening, notClosing]

theorem plain_of_alphanumeric
    {character : Char}
    (range : (48 ≤ character.toNat ∧ character.toNat ≤ 57) ∨
      (65 ≤ character.toNat ∧ character.toNat ≤ 90) ∨
      (97 ≤ character.toNat ∧ character.toNat ≤ 122)) :
    ScanState.endsAtom character = false := by
  apply not_endsAtom_of_code
  · omega
  · omega
  all_goals
    rintro rfl
    revert range
    decide

theorem plain_of_isDigit
    {character : Char} (digit : character.isDigit = true) :
    ScanState.endsAtom character = false := by
  apply plain_of_alphanumeric
  left
  simpa [Char.isDigit, UInt32.le_iff_toNat_le] using digit

theorem plain_of_isSymbolCharacter
    {character : Char} (symbol : isSymbolCharacter character = true) :
    ScanState.endsAtom character = false := by
  simp only [isSymbolCharacter, Bool.or_eq_true, Bool.and_eq_true,
    decide_eq_true_eq, List.contains_iff_mem] at symbol
  rcases symbol with range | member
  · apply plain_of_alphanumeric
    rwa [or_assoc] at range
  · exact (isWord_iff.mp (by decide)).2 character member

theorem plain_of_mem_number
    {character : Char} {number : Nat}
    (member : character ∈ (toString number).toList) :
    ScanState.endsAtom character = false := by
  have digit : character ∈ Nat.toDigits 10 number := by simpa using member
  exact plain_of_isDigit
    (Nat.isDigit_of_mem_toDigits (by decide) (by decide) digit)

theorem isWord_number (number : Nat) : isWord (toString number) = true := by
  rw [isWord_iff]
  constructor
  · simp
  · intro character member
    exact plain_of_mem_number member

/-- The atom that a symbol is read as: a declared name is escaped. -/
def FunctionSymbol.atom (symbol : FunctionSymbol) : SExpr :=
  if symbol.isBuiltin then .atom symbol.name
  else .atom (String.ofList (escapeName symbol.name.toList))

theorem legible_builtin
    {symbol : FunctionSymbol} (builtin : symbol.isBuiltin = true)
    (word : isWord symbol.name = true) :
    Legible symbol.text.toList symbol.atom := by
  rw [FunctionSymbol.text, FunctionSymbol.atom, if_pos builtin, if_pos builtin]
  exact legible_word word

/-- Whatever its name, a declared symbol is one atom. -/
theorem legible_declared
    {symbol : FunctionSymbol} (declared : symbol.isBuiltin = false) :
    Legible symbol.text.toList symbol.atom := by
  rw [FunctionSymbol.text, FunctionSymbol.atom, if_neg (by simp [declared]),
    if_neg (by simp [declared]), String.toList_ofList, symbolCharacters]
  generalize escaped : escapeName symbol.name.toList = characters
  split
  · next simple =>
      apply legible_plain
      · rintro rfl
        simp [isSimpleSymbol] at simple
      · intro character member
        rcases characters with _ | ⟨first, others⟩
        · cases member
        · simp only [isSimpleSymbol, Bool.and_eq_true, List.all_eq_true]
            at simple
          exact plain_of_isSymbolCharacter (simple.2 character member)
  · exact legible_barred (escaped ▸ bar_not_mem_escapeName _)

/-- The tree of a sort. -/
def SmtSort.tree : SmtSort → SExpr
  | .bitVec width =>
    .list [.atom "_", .atom "BitVec", .atom (toString width)]
  | other => .atom other.text

theorem legible_sort (sort : SmtSort) :
    Legible sort.text.toList sort.tree := by
  cases sort with
  | bitVec width =>
      have items : List.Forall₂ Legible
          ["_".toList, "BitVec".toList, (toString width).toList]
          [.atom "_", .atom "BitVec", .atom (toString width)] :=
        .cons (legible_word (by decide))
          (.cons (legible_word (by decide))
            (.cons (legible_word (isWord_number width)) .nil))
      have legible := legible_list items
      simpa [SmtSort.text, SmtSort.tree, List.intercalate] using legible
  | bool | int | string | regLan =>
      exact legible_word (by decide)

/-! ## Terms and their trees -/

namespace Term

/--
The tree of a term: an application is the list of its function's atom and its
arguments' trees.
-/
inductive HasTree : Term → SExpr → Prop where
  | bool (value : Bool) : HasTree (.bool value) (.atom (toString value))
  | bitVec (value width : Nat) :
      HasTree (.bitVec value width) (.list
        [.atom "_", .atom ("bv" ++ toString value), .atom (toString width)])
  | constant (name : String) (sort : SmtSort) :
      HasTree (.constant name sort)
        (.atom (String.ofList (escapeName name.toList)))
  | numeral (value : Nat) : HasTree (.numeral value) (.atom (toString value))
  | negative (value : Nat) :
      HasTree (.numeral (-(value + 1)))
        (.list [.atom "-", .atom (toString (value + 1))])
  | stringLiteral (text : String) : HasTree (.stringLiteral text) (.str text)
  | reAllChar : HasTree .reAllChar (.atom "re.allchar")
  | reNone : HasTree .reNone (.atom "re.none")
  | application {term : Term} {symbol : FunctionSymbol} {trees : List SExpr}
      (function : term.function? = some symbol)
      (applied : term.arguments ≠ [])
      (arguments : List.Forall₂ HasTree term.arguments trees) :
      HasTree term (.list (symbol.atom :: trees))

/--
The terms that can be built: literals, constants of any name, applications of
the functions of the theories and of declared ones, and what is joined of
them.
-/
inductive Built : Term → Prop where
  | bool (value : Bool) : Built (.bool value)
  | bitVecLiteral (value width : Nat) : Built (bitVecLiteral value width)
  | constant (name : String) (sort : SmtSort) : Built (constant name sort)
  | numeral (value : Int) : Built (numeral value)
  | stringLiteral (text : String) : Built (stringLiteral text)
  | applyUnary (function : UnaryFunction) {argument : Term} :
      Built argument → Built (applyUnary function argument)
  | applyBinary (function : BinaryFunction) {first second : Term} :
      Built first → Built second → Built (applyBinary function first second)
  | choice {condition whenTrue whenFalse : Term} :
      Built condition → Built whenTrue → Built whenFalse →
        Built (choice condition whenTrue whenFalse)
  | conjoin {terms : List Term} :
      (∀ term ∈ terms, Built term) → Built (conjoin terms)
  | disjoin {terms : List Term} :
      (∀ term ∈ terms, Built term) → Built (disjoin terms)
  | reRange (low high : Char) : Built (reRange low high)
  | reAllChar : Built reAllChar
  | reNone : Built reNone
  | apply {symbol : FunctionSymbol} {arguments : List Term} {term : Term} :
      symbol.isBuiltin = false → (∀ argument ∈ arguments, Built argument) →
        apply symbol arguments = .ok term → Built term

/-- The term has a tree, and its text is legible as no other. -/
structure ReadsBack (term : Term) : Prop where
  shaped : ∃ tree, term.HasTree tree
  legible : ∀ tree, term.HasTree tree → Legible term.text.toList tree

/-! ## Literals -/

theorem legible_bool (value : Bool) :
    Legible (bool value).text.toList (.atom (toString value)) := by
  cases value <;> exact legible_word (by decide)

theorem legible_bitVec (value width : Nat) :
    Legible (bitVec value width).text.toList (.list
      [.atom "_", .atom ("bv" ++ toString value), .atom (toString width)]) := by
  have number : isWord ("bv" ++ toString value) = true := by
    rw [isWord_iff]
    constructor
    · simp
    · intro character member
      rw [String.toList_append, List.mem_append] at member
      rcases member with letter | digit
      · exact (isWord_iff.mp (by decide)).2 character letter
      · exact plain_of_mem_number digit
  have items : List.Forall₂ Legible
      ["_".toList, ("bv" ++ toString value).toList, (toString width).toList]
      [.atom "_", .atom ("bv" ++ toString value), .atom (toString width)] :=
    .cons (legible_word (by decide))
      (.cons (legible_word number)
        (.cons (legible_word (isWord_number width)) .nil))
  simpa [text, List.intercalate] using legible_list items

theorem legible_negative (value : Nat) :
    Legible (numeral (-(value + 1))).text.toList
      (.list [.atom "-", .atom (toString (value + 1))]) := by
  have items : List.Forall₂ Legible
      ["-".toList, (toString (value + 1)).toList]
      [.atom "-", .atom (toString (value + 1))] :=
    .cons (legible_word (by decide))
      (.cons (legible_word (isWord_number (value + 1))) .nil)
  have written : (numeral (Int.negSucc value)).text =
      "(- " ++ toString (value + 1) ++ ")" := by
    rw [numeral, if_pos (Int.negSucc_lt_zero value), Int.natAbs_negSucc]
    rfl
  rw [← Int.negSucc_eq, written]
  simpa [List.intercalate] using legible_list items

theorem legible_stringLiteral (value : String) :
    Legible (stringLiteral value).text.toList (.str value) := by
  have written : (stringLiteral value).text =
      String.ofList ('"' :: doubleQuotes value.toList ++ ['"']) := rfl
  rw [written, String.toList_ofList]
  exact legible_quoted value

/-- Whatever has no arguments is legible as its tree. -/
theorem HasTree.legible_of_leaf
    {term : Term} {tree : SExpr} (shaped : term.HasTree tree)
    (leaf : term.arguments = []) : Legible term.text.toList tree := by
  cases shaped with
  | bool value => exact legible_bool value
  | bitVec value width => exact legible_bitVec value width
  | constant name sort => exact @legible_declared (.constant name sort) rfl
  | numeral value => exact legible_word (isWord_number value)
  | negative value => exact legible_negative value
  | stringLiteral value => exact legible_stringLiteral value
  | reAllChar | reNone => exact legible_word (by decide)
  | application _ applied _ => exact absurd leaf applied

theorem HasTree.readsBack
    {term : Term} {tree : SExpr} (shaped : term.HasTree tree)
    (leaf : term.arguments = []) : term.ReadsBack :=
  ⟨⟨tree, shaped⟩, fun _ other => other.legible_of_leaf leaf⟩

theorem readsBack_numeral (value : Int) : (numeral value).ReadsBack := by
  rcases value with number | number
  · exact (HasTree.numeral number).readsBack rfl
  · exact (HasTree.negative number).readsBack rfl

/-! ## Applications -/

theorem text_application
    {term : Term} {symbol : FunctionSymbol}
    (function : term.function? = some symbol) (applied : term.arguments ≠ []) :
    term.text.toList = '(' :: ([' '].intercalate
      (symbol.text.toList ::
        term.arguments.map (fun argument => argument.text.toList)) ++
          [')']) := by
  cases term with
  | bool | bitVec => cases function
  | nullary => exact absurd rfl applied
  | unary | binary | ternary =>
      cases function
      simp [text, arguments, List.intercalate]

theorem exists_trees
    {terms : List Term} (readBack : ∀ term ∈ terms, term.ReadsBack) :
    ∃ trees, List.Forall₂ HasTree terms trees := by
  induction terms with
  | nil => exact ⟨[], .nil⟩
  | cons term rest induction =>
      rcases (readBack term List.mem_cons_self).shaped with ⟨tree, shaped⟩
      rcases induction (fun other member =>
        readBack other (List.mem_cons_of_mem _ member)) with ⟨trees, others⟩
      exact ⟨tree :: trees, .cons shaped others⟩

theorem legible_trees
    {terms : List Term} {trees : List SExpr}
    (shaped : List.Forall₂ HasTree terms trees)
    (readBack : ∀ term ∈ terms, term.ReadsBack) :
    List.Forall₂ Legible
      (terms.map (fun term => term.text.toList)) trees := by
  induction shaped with
  | nil => exact .nil
  | @cons term tree terms trees first others induction =>
      apply List.Forall₂.cons
      · exact (readBack term List.mem_cons_self).legible tree first
      · apply induction
        intro other member
        exact readBack other (List.mem_cons_of_mem _ member)

/-- An application reads back if its symbol and its arguments do. -/
theorem readsBack_application
    {term : Term} {symbol : FunctionSymbol}
    (function : term.function? = some symbol) (applied : term.arguments ≠ [])
    (head : Legible symbol.text.toList symbol.atom)
    (readBack : ∀ argument ∈ term.arguments, argument.ReadsBack) :
    term.ReadsBack := by
  constructor
  · rcases exists_trees readBack with ⟨trees, shaped⟩
    exact ⟨_, .application function applied shaped⟩
  · intro tree shaped
    cases shaped with
    | application other _ arguments =>
        rw [function, Option.some.injEq] at other
        subst other
        rw [text_application function applied]
        exact legible_list (.cons head (legible_trees arguments readBack))
    | bool | bitVec | constant | numeral | negative | stringLiteral
    | reAllChar | reNone => exact absurd rfl applied

theorem readsBack_applyUnary
    (function : UnaryFunction) {argument : Term}
    (readBack : argument.ReadsBack) :
    (applyUnary function argument).ReadsBack := by
  have word : isWord function.name = true := by cases function <;> decide
  refine readsBack_application rfl (by simp [applyUnary, arguments])
    (legible_builtin rfl word) ?_
  simpa [applyUnary, arguments] using readBack

theorem readsBack_applyBinary
    (function : BinaryFunction) {first second : Term}
    (firstBack : first.ReadsBack) (secondBack : second.ReadsBack) :
    (applyBinary function first second).ReadsBack := by
  have word : isWord function.name = true := by cases function <;> decide
  refine readsBack_application rfl (by simp [applyBinary, arguments])
    (legible_builtin rfl word) ?_
  simpa [applyBinary, arguments] using ⟨firstBack, secondBack⟩

theorem readsBack_choice
    {condition whenTrue whenFalse : Term}
    (conditionBack : condition.ReadsBack) (trueBack : whenTrue.ReadsBack)
    (falseBack : whenFalse.ReadsBack) :
    (choice condition whenTrue whenFalse).ReadsBack := by
  have word : isWord "ite" = true := by decide
  refine readsBack_application rfl (by simp [choice, arguments])
    (legible_builtin rfl word) ?_
  simpa [choice, arguments] using ⟨conditionBack, trueBack, falseBack⟩

theorem readsBack_foldl
    (function : BinaryFunction) {terms : List Term} {first : Term}
    (firstBack : first.ReadsBack)
    (readBack : ∀ term ∈ terms, term.ReadsBack) :
    (terms.foldl (applyBinary function) first).ReadsBack := by
  induction terms generalizing first with
  | nil => exact firstBack
  | cons term rest induction =>
      apply induction
      · exact readsBack_applyBinary function firstBack
          (readBack term List.mem_cons_self)
      · intro other member
        exact readBack other (List.mem_cons_of_mem _ member)

theorem readsBack_joined
    (function : BinaryFunction) (neutral : Bool) (terms : List Term) :
    (∀ term ∈ terms, term.ReadsBack) →
      ReadsBack (match terms with
        | [] => bool neutral
        | first :: rest => rest.foldl (applyBinary function) first) := by
  intro readBack
  cases terms with
  | nil => exact (HasTree.bool neutral).readsBack rfl
  | cons first rest =>
      apply readsBack_foldl function (readBack first List.mem_cons_self)
      intro term member
      exact readBack term (List.mem_cons_of_mem _ member)

theorem readsBack_conjoin
    {terms : List Term} (readBack : ∀ term ∈ terms, term.ReadsBack) :
    (conjoin terms).ReadsBack :=
  readsBack_joined .and true _ (fun term member =>
    readBack term (List.mem_of_mem_filter member))

theorem readsBack_disjoin
    {terms : List Term} (readBack : ∀ term ∈ terms, term.ReadsBack) :
    (disjoin terms).ReadsBack :=
  readsBack_joined .or false _ (fun term member =>
    readBack term (List.mem_of_mem_filter member))

/-- What a declared function is applied to, and what it makes of it. -/
theorem apply_eq_ok
    {symbol : FunctionSymbol} {given : List Term} {term : Term}
    (applied : apply symbol given = .ok term) :
    term.function? = some symbol ∧ term.arguments = given ∧
      (given = [] → term = .nullary symbol ∧ symbol.arguments = .none) := by
  unfold apply at applied
  split at applied
  all_goals cases applied
  · next sorts => exact ⟨rfl, rfl, fun _ => ⟨rfl, sorts⟩⟩
  all_goals exact ⟨rfl, rfl, by simp⟩

theorem readsBack_apply
    {symbol : FunctionSymbol} {given : List Term} {term : Term}
    (declared : symbol.isBuiltin = false)
    (readBack : ∀ argument ∈ given, argument.ReadsBack)
    (applied : apply symbol given = .ok term) : term.ReadsBack := by
  rcases apply_eq_ok applied with ⟨function, rfl, alone⟩
  by_cases nothing : term.arguments = []
  · rcases alone nothing with ⟨rfl, sorts⟩
    rcases symbol with ⟨name, sorts', result, _ | _⟩
    · cases declared
    · cases sorts
      exact (HasTree.constant name result).readsBack rfl
  · exact readsBack_application function nothing (legible_declared declared)
      readBack

theorem Built.readsBack {term : Term} (built : Built term) :
    term.ReadsBack := by
  induction built with
  | bool value => exact (HasTree.bool value).readsBack rfl
  | bitVecLiteral value width => exact (HasTree.bitVec _ width).readsBack rfl
  | constant name sort => exact (HasTree.constant name sort).readsBack rfl
  | numeral value => exact readsBack_numeral value
  | stringLiteral text => exact (HasTree.stringLiteral text).readsBack rfl
  | applyUnary function _ argument =>
      exact readsBack_applyUnary function argument
  | applyBinary function _ _ first second =>
      exact readsBack_applyBinary function first second
  | choice _ _ _ condition whenTrue whenFalse =>
      exact readsBack_choice condition whenTrue whenFalse
  | conjoin _ terms => exact readsBack_conjoin terms
  | disjoin _ terms => exact readsBack_disjoin terms
  | reRange low high =>
      exact readsBack_applyBinary .reRange
        ((HasTree.stringLiteral _).readsBack rfl)
        ((HasTree.stringLiteral _).readsBack rfl)
  | reAllChar => exact HasTree.reAllChar.readsBack rfl
  | reNone => exact HasTree.reNone.readsBack rfl
  | apply declared _ applied arguments =>
      exact readsBack_apply declared arguments applied

end Term

/-! ## Commands -/

/-- The tree of the command that introduces a symbol. -/
def FunctionSymbol.declarationTree (symbol : FunctionSymbol) : SExpr :=
  .list [.atom "declare-fun", symbol.atom,
    .list (symbol.argumentSorts.map SmtSort.tree), symbol.result.tree]

theorem legible_sorts (sorts : List SmtSort) :
    List.Forall₂ Legible (sorts.map (String.toList ∘ SmtSort.text))
      (sorts.map SmtSort.tree) := by
  induction sorts with
  | nil => exact .nil
  | cons sort rest induction => exact .cons (legible_sort sort) induction

/-- A declaration has its parts, whatever the name that is declared. -/
theorem FunctionSymbol.read_declaration
    {symbol : FunctionSymbol} (declared : symbol.isBuiltin = false) :
    ∃ declaration, symbol.declaration? = some declaration ∧
      SExpr.read declaration = .ok symbol.declarationTree := by
  refine ⟨_, by rw [declaration?, if_neg (by simp [declared])], ?_⟩
  have items := List.Forall₂.cons
    (legible_word (show isWord "declare-fun" = true by decide))
    (.cons (legible_declared declared)
      (.cons (legible_list (legible_sorts symbol.argumentSorts))
        (.cons (legible_sort symbol.result) .nil)))
  apply Legible.read
  simpa [declarationTree, List.intercalate] using legible_list items

namespace Term

theorem mem_collectDeclarations
    (term : Term) {seen : List FunctionSymbol} {symbol : FunctionSymbol}
    (member : symbol ∈ term.collectDeclarations seen) :
    symbol ∈ seen ∨ symbol.isBuiltin = false :=
  (mem_collectDeclarations_iff.mp member).imp_right And.left

/--
A term that can be built has one tree, and is read back as that tree, alone
and in the commands that are made of it; and the commands that introduce its
symbols have the parts of a declaration.
-/
theorem built_terms_read_back {term : Term} (built : Built term) :
    ∃ tree, (∀ other, term.HasTree other ↔ other = tree) ∧
      SExpr.read term.text = .ok tree ∧
      SExpr.read ("(assert " ++ term.text ++ ")") =
        .ok (.list [.atom "assert", tree]) ∧
      SExpr.read ("(get-value (" ++ term.text ++ "))") =
        .ok (.list [.atom "get-value", .list [tree]]) ∧
      ∀ symbol ∈ term.declarations, ∃ declaration,
        symbol.declaration? = some declaration ∧
          SExpr.read declaration = .ok symbol.declarationTree := by
  rcases built.readsBack with ⟨⟨tree, shaped⟩, allLegible⟩
  have legible := allLegible tree shaped
  refine ⟨tree, ?_, legible.read, ?_, ?_, ?_⟩
  · intro other
    constructor
    · intro otherShaped
      have readings := (allLegible other otherShaped).read
      rw [legible.read, Except.ok.injEq] at readings
      exact readings.symm
    · rintro rfl
      exact shaped
  · have items := List.Forall₂.cons
      (legible_word (show isWord "assert" = true by decide))
      (.cons legible .nil)
    apply Legible.read
    simpa [List.intercalate] using legible_list items
  · have items := List.Forall₂.cons
      (legible_word (show isWord "get-value" = true by decide))
      (.cons (legible_list (.cons legible .nil)) .nil)
    apply Legible.read
    simpa [List.intercalate] using legible_list items
  · intro symbol member
    apply FunctionSymbol.read_declaration
    exact (mem_collectDeclarations term member).resolve_left List.not_mem_nil

/-- Compares a constant and a text that look like the end of the command. -/
def intruder : Term :=
  equation (constant "x) (exit)|\n" .string) (stringLiteral "\")) (exit)\n")

/-- The parentheses, quotes and bars inside stay inside. -/
theorem intruder_reads_back :
    SExpr.read ("(assert " ++ intruder.text ++ ")") =
        .ok (.list [.atom "assert", .list [.atom "=",
          .atom "x) (exit)%7C\n", .str "\")) (exit)\n"]]) ∧
      ∃ tree, intruder.HasTree tree ∧
        SExpr.read ("(assert " ++ intruder.text ++ ")") =
          .ok (.list [.atom "assert", tree]) := by
  constructor
  · rw [SExpr.read_eq_ok_iff]
    decide +kernel
  · rcases built_terms_read_back
      (.applyBinary .equal (.constant "x) (exit)|\n" .string)
        (.stringLiteral "\")) (exit)\n")) with
      ⟨tree, unique, _, asserted, _⟩
    exact ⟨tree, (unique tree).mpr rfl, asserted⟩

end Term

end FlowWitness.Smt
