import FlowWitness.Proofs.Smt.Completion
import Mathlib.Data.List.Induction
import Mathlib.Data.List.TakeWhile

/-!
# The grammar of s-expressions

What a text has to look like to be read, said without the scan and without
the list of open lists.  A text splits into units: parentheses, strings in
quotes, symbols in bars, and atoms, which go as far as they can; blanks
between the units count for nothing.  Units form an expression if they are
one atom, symbol or string, or expressions between parentheses.

Reading accepts the texts whose units form one expression, and no others, and
gives that expression.
-/

namespace FlowWitness.Smt

open FlowWitness.Text

/-! ## Units -/

/-- A unit of a text, with its content. -/
inductive Lexeme where
  | opening
  | closing
  | literal (text : List Char)
  | symbol (name : List Char)
  | atom (text : List Char)
  deriving DecidableEq, Repr

/-- A character that may stand in an atom. -/
def Ordinary (character : Char) : Prop :=
  isBlank character = false ∧ character ≠ '(' ∧ character ≠ ')' ∧
    character ≠ '"' ∧ character ≠ '|'

/-- The text is a sequence of units, with blanks anywhere between them. -/
inductive Splits : List Char → List Lexeme → Prop where
  | done : Splits [] []
  | blank {character : Char} {rest : List Char} {units : List Lexeme}
      (skipped : isBlank character = true) (later : Splits rest units) :
      Splits (character :: rest) units
  | opening {rest : List Char} {units : List Lexeme}
      (later : Splits rest units) : Splits ('(' :: rest) (.opening :: units)
  | closing {rest : List Char} {units : List Lexeme}
      (later : Splits rest units) : Splits (')' :: rest) (.closing :: units)
  | literal (text : List Char) {rest : List Char} {units : List Lexeme}
      (ended : rest.head? ≠ some '"') (later : Splits rest units) :
      Splits ('"' :: (Term.doubleQuotes text ++ '"' :: rest))
        (.literal text :: units)
  | symbol {name rest : List Char} {units : List Lexeme}
      (unbarred : '|' ∉ name) (later : Splits rest units) :
      Splits ('|' :: (name ++ '|' :: rest)) (.symbol name :: units)
  | atom {text rest : List Char} {units : List Lexeme} (nonempty : text ≠ [])
      (ordinary : ∀ character ∈ text, Ordinary character)
      (maximal : ∀ character ∈ rest.head?, ¬ Ordinary character)
      (later : Splits rest units) :
      Splits (text ++ rest) (.atom text :: units)

mutual

/-- The units are those of one expression. -/
inductive Forms : List Lexeme → SExpr → Prop where
  | atom (text : List Char) : Forms [.atom text] (.atom (String.ofList text))
  | symbol (name : List Char) :
      Forms [.symbol name] (.atom (String.ofList name))
  | literal (text : List Char) :
      Forms [.literal text] (.str (String.ofList text))
  | list {units : List Lexeme} {items : List SExpr}
      (inside : FormsAll units items) :
      Forms (.opening :: (units ++ [.closing])) (.list items)

/-- The units are those of expressions, one after another. -/
inductive FormsAll : List Lexeme → List SExpr → Prop where
  | nil : FormsAll [] []
  | cons {first rest : List Lexeme} {item : SExpr} {items : List SExpr}
      (head : Forms first item) (tail : FormsAll rest items) :
      FormsAll (first ++ rest) (item :: items)

end

/-- The token that the scan makes of a unit. -/
def Lexeme.token : Lexeme → SExprToken
  | opening => .opening
  | closing => .closing
  | literal text => .str text
  | symbol name => .atom name
  | atom text => .atom text

/-! ## Splitting is scanning -/

theorem ordinary_iff {character : Char} :
    Ordinary character ↔ ScanState.endsAtom character = false := by
  simp [Ordinary, ScanState.endsAtom, and_assoc]

theorem not_ordinary_iff {character : Char} :
    ¬ Ordinary character ↔ ScanState.endsAtom character = true := by
  rw [ordinary_iff, Bool.not_eq_false]

/-- The units of a text are scanned one by one. -/
theorem Splits.spelled_eq
    {characters : List Char} {units : List Lexeme}
    (splits : Splits characters units) :
    spelled .between characters = units.map Lexeme.token := by
  induction splits with
  | done => rfl
  | blank skipped _ later => rw [spelled_of_blank skipped, later]
  | opening _ later => rw [spelled_opening, later]; rfl
  | closing _ later => rw [spelled_closing, later]; rfl
  | literal text ended _ later => rw [spelled_literal text ended, later]; rfl
  | symbol unbarred _ later => rw [spelled_symbol _ unbarred, later]; rfl
  | atom nonempty ordinary maximal _ later =>
      rw [spelled_atom nonempty
        (fun character member => ordinary_iff.mp (ordinary character member))
        (fun character next => not_ordinary_iff.mp (maximal character next)),
        later]
      rfl

/-- A string is closed at the first quote that is not doubled, or not at all. -/
theorem literal_or_open (characters reversed : List Char) :
    (∃ text rest, characters = Term.doubleQuotes text ++ '"' :: rest ∧
      rest.head? ≠ some '"') ∨
    spelled (.inString reversed 0) characters = [.openString] := by
  -- Two characters at a time, because a doubled quote is passed as a whole.
  induction characters using List.twoStepInduction generalizing reversed with
  | nil => exact Or.inr rfl
  | singleton character =>
      by_cases quote : character = '"'
      · subst quote
        exact Or.inl ⟨[], [], rfl, by simp⟩
      · refine Or.inr ?_
        rw [spelled_cons, ScanState.advance, if_neg quote]
        rfl
  | cons_cons character next others further shorter =>
      by_cases quote : character = '"'
      · subst quote
        by_cases doubled : next = '"'
        · subst doubled
          rcases further ('"' :: reversed) with
            ⟨text, rest, rfl, ended⟩ | unclosed
          · exact Or.inl ⟨'"' :: text, rest, rfl, ended⟩
          · refine Or.inr ?_
            rw [spelled_cons, ScanState.advance, if_pos rfl, spelled_cons,
              ScanState.advance, if_pos rfl]
            exact unclosed
        · exact Or.inl ⟨[], next :: others, rfl, by simpa using doubled⟩
      · rcases shorter next (character :: reversed) with
          ⟨text, rest, split, ended⟩ | unclosed
        · refine Or.inl ⟨character :: text, rest, ?_, ended⟩
          rw [Term.doubleQuotes, split, List.cons_append]
          exact quote
        · refine Or.inr ?_
          rw [spelled_cons, ScanState.advance, if_neg quote]
          exact unclosed

theorem spelled_unbarred
    {characters : List Char} (unbarred : '|' ∉ characters)
    (reversed : List Char) :
    spelled (.inSymbol reversed 0) characters = [.openSymbol] := by
  induction characters generalizing reversed with
  | nil => rfl
  | cons character others induction =>
      rw [List.mem_cons, not_or] at unbarred
      rw [spelled_cons, ScanState.advance, if_neg (Ne.symm unbarred.1)]
      exact induction unbarred.2 _

/-- The unit stands at the front of the text, and the rest comes after it. -/
structure Begins (characters : List Char) (unit : Lexeme) (rest : List Char) :
    Prop where
  shorter : rest.length < characters.length
  scanned : spelled .between characters = unit.token :: spelled .between rest
  splits : ∀ units, Splits rest units → Splits characters (unit :: units)

/-- An ordinary character begins an atom that goes as far as it can. -/
theorem begins_atom
    {first : Char} (others : List Char) (ordinary : Ordinary first) :
    ∃ unit rest, Begins (first :: others) unit rest := by
  let plain := fun character => !ScanState.endsAtom character
  have whole : first :: others.takeWhile plain ++ others.dropWhile plain =
      first :: others := by
    rw [List.cons_append, List.takeWhile_append_dropWhile]
  have nonempty : first :: others.takeWhile plain ≠ [] := by simp
  have inside : ∀ character ∈ first :: others.takeWhile plain,
      Ordinary character := by
    intro character member
    rcases List.mem_cons.mp member with rfl | later
    · exact ordinary
    · have passed := List.mem_takeWhile_imp later
      exact ordinary_iff.mpr (by simpa [plain] using passed)
  have maximal : ∀ character ∈ (others.dropWhile plain).head?,
      ¬ Ordinary character := by
    intro character next
    have stopped := List.head?_dropWhile_not plain others
    rw [Option.mem_def.mp next] at stopped
    exact not_ordinary_iff.mpr (by simpa [plain] using stopped)
  refine ⟨.atom (first :: others.takeWhile plain), others.dropWhile plain, ?_⟩
  constructor
  case shorter =>
    exact Nat.lt_succ_of_le (List.dropWhile_sublist plain).length_le
  case scanned =>
    rw [← whole]
    exact spelled_atom nonempty
      (fun character member => ordinary_iff.mp (inside character member))
      (fun character next => not_ordinary_iff.mp (maximal character next))
  case splits =>
    intro units later
    rw [← whole]
    exact .atom nonempty inside maximal later

/-- What is not blank begins a unit, if the scan leaves nothing open. -/
theorem exists_begins
    {first : Char} {others : List Char} (visible : isBlank first = false)
    (whole : ∀ token ∈ spelled .between (first :: others),
      SExpr.Whole token) :
    ∃ unit rest, Begins (first :: others) unit rest := by
  by_cases opening : first = '('
  · subst opening
    exact ⟨.opening, others, by simp, spelled_opening others,
      fun _ => .opening⟩
  by_cases closing : first = ')'
  · subst closing
    exact ⟨.closing, others, by simp, spelled_closing others,
      fun _ => .closing⟩
  by_cases quote : first = '"'
  · subst quote
    rcases literal_or_open others [] with ⟨text, rest, rfl, ended⟩ | unclosed
    · refine ⟨.literal text, rest, ?_, spelled_literal text ended,
        fun _ => .literal text ended⟩
      simp only [List.length_cons, List.length_append]
      omega
    · rw [spelled_quote, unclosed] at whole
      exact absurd rfl (whole .openString List.mem_cons_self).1
  by_cases bar : first = '|'
  · subst bar
    by_cases closed : '|' ∈ others
    · rcases List.eq_append_cons_of_mem closed with
        ⟨name, rest, rfl, unbarred⟩
      refine ⟨.symbol name, rest, ?_, spelled_symbol rest unbarred,
        fun _ => .symbol unbarred⟩
      simp only [List.length_cons, List.length_append]
      omega
    · rw [spelled_bar, spelled_unbarred closed] at whole
      exact absurd rfl (whole .openSymbol List.mem_cons_self).2
  exact begins_atom others ⟨visible, opening, closing, quote, bar⟩

/--
A text whose scan leaves no string and no symbol open splits into the units
that were scanned.
-/
theorem exists_splits
    {characters : List Char}
    (whole : ∀ token ∈ spelled .between characters, SExpr.Whole token) :
    ∃ units, Splits characters units ∧
      units.map Lexeme.token = spelled .between characters := by
  -- A blank or a unit at the front leaves a shorter text.
  induction size : characters.length using Nat.strongRecOn
    generalizing characters with
  | ind length induction =>
      rcases characters with _ | ⟨first, others⟩
      · exact ⟨[], .done, rfl⟩
      rcases Bool.eq_false_or_eq_true (isBlank first) with blank | visible
      · rw [spelled_of_blank blank] at whole ⊢
        rcases induction others.length (by simp [← size]) whole rfl with
          ⟨units, splits, scanned⟩
        exact ⟨units, .blank blank splits, scanned⟩
      · rcases exists_begins visible whole with ⟨unit, rest, begins⟩
        rw [begins.scanned] at whole ⊢
        rcases induction rest.length (size ▸ begins.shorter)
          (List.forall_mem_cons.mp whole).2 rfl with ⟨units, splits, scanned⟩
        exact ⟨unit :: units, begins.splits units splits,
          by rw [List.map_cons, scanned]⟩

/-! ## Forming is having the tokens -/

mutual

/-- Units that form an expression have its tokens. -/
theorem Forms.tokens_eq {units : List Lexeme} {expression : SExpr}
    (forms : Forms units expression) :
    units.map Lexeme.token = expression.tokens := by
  match forms with
  | .atom text => simp [SExpr.tokens, Lexeme.token]
  | .symbol name => simp [SExpr.tokens, Lexeme.token]
  | .literal text => simp [SExpr.tokens, Lexeme.token]
  | .list inside =>
      simp [SExpr.tokens, Lexeme.token, inside.tokens_eq]

theorem FormsAll.tokens_eq {units : List Lexeme} {items : List SExpr}
    (forms : FormsAll units items) :
    units.map Lexeme.token = SExpr.itemsTokens items := by
  match forms with
  | .nil => rfl
  | .cons head tail =>
      rw [List.map_append, head.tokens_eq, tail.tokens_eq, SExpr.itemsTokens]

end

mutual

/-- Units with the tokens of an expression form it. -/
theorem forms_of_tokens
    (expression : SExpr) {units : List Lexeme}
    (given : units.map Lexeme.token = expression.tokens) :
    Forms units expression := by
  match expression with
  | .atom text =>
      rw [SExpr.tokens] at given
      rcases List.map_eq_singleton_iff.mp given with ⟨unit, rfl, same⟩
      cases unit with
      | opening => cases same
      | closing => cases same
      | literal => cases same
      | symbol name =>
          rw [← String.ofList_toList (s := text), ← SExprToken.atom.inj same]
          exact .symbol name
      | atom characters =>
          rw [← String.ofList_toList (s := text), ← SExprToken.atom.inj same]
          exact .atom characters
  | .str text =>
      rw [SExpr.tokens] at given
      rcases List.map_eq_singleton_iff.mp given with ⟨unit, rfl, same⟩
      cases unit with
      | opening => cases same
      | closing => cases same
      | symbol => cases same
      | atom => cases same
      | literal characters =>
          rw [← String.ofList_toList (s := text), ← SExprToken.str.inj same]
          exact .literal characters
  | .list items =>
      rw [SExpr.tokens] at given
      rcases List.map_eq_cons_iff.mp given with
        ⟨first, remaining, rfl, firstGiven, remainingGiven⟩
      rcases List.map_eq_append_iff.mp remainingGiven with
        ⟨inside, ending, rfl, insideGiven, endingGiven⟩
      rcases List.map_eq_singleton_iff.mp endingGiven with ⟨last, rfl, lastGiven⟩
      have opens : first = .opening := by
        cases first <;> simp_all [Lexeme.token]
      have closes : last = .closing := by
        cases last <;> simp_all [Lexeme.token]
      subst opens closes
      exact .list (formsAll_of_tokens items insideGiven)

theorem formsAll_of_tokens
    (items : List SExpr) {units : List Lexeme}
    (given : units.map Lexeme.token = SExpr.itemsTokens items) :
    FormsAll units items := by
  match items with
  | [] =>
      rw [List.map_eq_nil_iff.mp given]
      exact .nil
  | item :: others =>
      rw [SExpr.itemsTokens] at given
      rcases List.map_eq_append_iff.mp given with
        ⟨first, remaining, rfl, firstGiven, remainingGiven⟩
      exact .cons (forms_of_tokens item firstGiven)
        (formsAll_of_tokens others remainingGiven)

end

/-! ## Reading takes as many steps as there are characters -/

/-- A token that has begun and is not complete counts as one. -/
def ScanState.pending : ScanState → Nat
  | between => 0
  | _ => 1

theorem length_enter (character : Char) (offset : Nat) :
    (ScanState.enter character offset).1.length +
      (ScanState.enter character offset).2.pending ≤ 1 := by
  unfold ScanState.enter
  split
  · exact Nat.zero_le 1
  · split <;> exact Nat.le_refl 1

/-- A character begins one token at most. -/
theorem length_advance (character : Char) (offset : Nat) (state : ScanState) :
    (state.advance character offset).1.length +
      (state.advance character offset).2.pending ≤ state.pending + 1 := by
  have entered := length_enter character offset
  cases state with
  | between => exact entered
  | inAtom reversed start =>
      rw [ScanState.advance]
      split
      · have begun : (ScanState.inAtom reversed start).pending = 1 := rfl
        simp only [List.length_cons]
        omega
      · simp [ScanState.pending]
  | inString reversed start =>
      rw [ScanState.advance]
      split <;> simp [ScanState.pending]
  | afterQuote reversed start =>
      rw [ScanState.advance]
      split
      · simp [ScanState.pending]
      · have begun : (ScanState.afterQuote reversed start).pending = 1 := rfl
        simp only [List.length_cons]
        omega
  | inSymbol reversed start =>
      rw [ScanState.advance]
      split
      · simp [ScanState.pending]
      · simp [ScanState.pending]

theorem length_tokensFrom
    (characters : List Char) (state : ScanState) (offset : Nat) :
    (tokensFrom state offset characters).length ≤
      state.pending + characters.length := by
  induction characters generalizing state offset with
  | nil =>
      cases state <;> simp [tokensFrom, ScanState.finish, ScanState.pending]
  | cons character rest induction =>
      have step := length_advance character offset state
      have later := induction (state.advance character offset).2 (offset + 1)
      rw [tokensFrom]
      simp only [List.length_append, List.length_cons]
      omega

/-! ## The language of the reader -/

/-- A text is read as the expression that its units form. -/
theorem read_eq_ok_iff_forms {text : String} {expression : SExpr} :
    SExpr.read text = .ok expression ↔
      ∃ units, Splits text.toList units ∧ Forms units expression := by
  rw [SExpr.read_eq_ok_iff]
  constructor
  · intro spells
    have whole : ∀ token ∈ spelled .between text.toList,
        SExpr.Whole token := by
      rw [spells]
      exact fun token => expression.whole_of_mem_tokens
    rcases exists_splits whole with ⟨units, splits, scanned⟩
    exact ⟨units, splits, forms_of_tokens expression (scanned.trans spells)⟩
  · rintro ⟨units, splits, forms⟩
    rw [splits.spelled_eq, forms.tokens_eq]

/--
Reading accepts the texts that split into units forming one expression, gives
that expression, and reports a fault on every other text.  It ends on all of
them: it takes one step for a character and one for a token, and there are no
more tokens than characters.
-/
theorem reads_exactly_its_grammar (text : String) :
    (∀ expression, SExpr.read text = .ok expression ↔
      ∃ units, Splits text.toList units ∧ Forms units expression) ∧
    ((∃ fault, SExpr.read text = .error fault) ↔
      ¬ ∃ expression units, Splits text.toList units ∧
        Forms units expression) ∧
    (tokens text.toList).length ≤ text.toList.length := by
  refine ⟨fun expression => read_eq_ok_iff_forms, ?_, ?_⟩
  · simp only [← read_eq_ok_iff_forms]
    cases SExpr.read text with
    | ok expression => simp
    | error fault => simp
  · have bound := length_tokensFrom text.toList .between 0
    simpa [tokens, ScanState.pending] using bound

/-- Units need no blanks between them: a bar ends an atom, and a quote too. -/
example : SExpr.read "(a|b c|\"d\"\"e\")" =
    .ok (.list [.atom "a", .atom "b c", .str "d\"e"]) := by
  rfl

end FlowWitness.Smt
