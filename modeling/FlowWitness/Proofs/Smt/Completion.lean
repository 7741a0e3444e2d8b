import FlowWitness.Proofs.Smt.Spelling

/-!
# Where an expression is over

Whether a text is complete is decided by counting parentheses, without
reading it.  The count is the balance of the tokens spelled so far, and the
balance of an expression comes down to zero at its last token only.  So a run
of whole lines that looks complete is never cut short: if the text that it
belongs to can be read, then nothing but blanks is left of it.

The count also agrees with the reader on single texts.  A text that is read is
complete, and a complete text that is not read stays so, whatever follows it.
-/

namespace FlowWitness.Smt

open FlowWitness.Text

/-! ## The balance of tokens -/

/-- How many more lists are open after a token. -/
def SExprToken.balance : SExprToken → Int
  | .opening => 1
  | .closing => -1
  | _ => 0

/-- Does the token close a list? -/
def SExprToken.isClosing : SExprToken → Bool
  | .closing => true
  | _ => false

/-- How many lists are open after the tokens. -/
def balance : List SExprToken → Int
  | [] => 0
  | token :: rest => token.balance + balance rest

theorem balance_append (first second : List SExprToken) :
    balance (first ++ second) = balance first + balance second := by
  induction first with
  | nil => simp [balance]
  | cons token rest induction =>
      rw [List.cons_append, balance, balance, induction, Int.add_assoc]

namespace SExpr

mutual

theorem balance_tokens (expression : SExpr) :
    balance expression.tokens = 0 := by
  match expression with
  | .atom text => rfl
  | .str text => rfl
  | .list items =>
      rw [tokens, balance, balance_append, balance_itemsTokens items]
      rfl

theorem balance_itemsTokens (items : List SExpr) :
    balance (itemsTokens items) = 0 := by
  match items with
  | [] => rfl
  | item :: rest =>
      rw [itemsTokens, balance_append, balance_tokens item,
        balance_itemsTokens rest]
      rfl

end

mutual

/-- Until the last token of an expression, a list is open. -/
theorem balance_pos
    (expression : SExpr) {front back : List SExprToken}
    (whole : expression.tokens = front ++ back)
    (begun : front ≠ []) (unfinished : back ≠ []) : 0 < balance front := by
  match expression with
  | .atom text | .str text =>
      rw [tokens] at whole
      rcases List.append_eq_singleton_iff.mp whole.symm with
        ⟨nothing, _⟩ | ⟨_, nothing⟩
      · exact absurd nothing begun
      · exact absurd nothing unfinished
  | .list items =>
      rw [tokens] at whole
      rcases front with _ | ⟨first, inside⟩
      · exact absurd rfl begun
      · rcases List.eq_nil_or_concat back with nothing | ⟨behind, last, rfl⟩
        · exact absurd nothing unfinished
        · rw [List.cons_append, List.cons.injEq, List.concat_eq_append,
            ← List.append_assoc] at whole
          have among := (List.append_inj' whole.2 rfl).1
          have inner := balance_nonneg items among
          rw [← whole.1, balance, SExprToken.balance]
          omega

theorem balance_nonneg
    (items : List SExpr) {front back : List SExprToken}
    (whole : itemsTokens items = front ++ back) : 0 ≤ balance front := by
  match items with
  | [] =>
      rw [(List.append_eq_nil_iff.mp whole.symm).1]
      exact Int.le_refl 0
  | item :: rest =>
      rw [itemsTokens] at whole
      rcases List.append_eq_append_iff.mp whole with
        ⟨further, rfl, remaining⟩ | ⟨missing, inside, _⟩
      · have later := balance_nonneg rest remaining
        rw [balance_append, balance_tokens]
        omega
      · by_cases begun : front = []
        · rw [begun]
          exact Int.le_refl 0
        by_cases finished : missing = []
        · rw [finished, List.append_nil] at inside
          rw [← inside]
          exact Int.le_of_eq (balance_tokens item).symm
        exact Int.le_of_lt (balance_pos item inside begun finished)

end

/-- A beginning of an expression that leaves no list open is all of it. -/
theorem eq_nil_of_balance_le
    {expression : SExpr} {front back : List SExprToken}
    (whole : expression.tokens = front ++ back)
    (begun : front ≠ []) (closed : balance front ≤ 0) : back = [] := by
  by_cases finished : back = []
  · exact finished
  · have stillOpen := expression.balance_pos whole begun finished
    omega

/-- The tokens of an expression are whole. -/
def Whole (token : SExprToken) : Prop :=
  token ≠ .openString ∧ token ≠ .openSymbol

mutual

theorem whole_of_mem_tokens
    (expression : SExpr) {token : SExprToken}
    (member : token ∈ expression.tokens) : Whole token := by
  match expression with
  | .atom text | .str text =>
      rw [tokens, List.mem_singleton] at member
      simp [Whole, member]
  | .list items =>
      rw [tokens, List.mem_cons, List.mem_append, List.mem_singleton] at member
      rcases member with rfl | inside | rfl
      · simp [Whole]
      · exact whole_of_mem_itemsTokens items inside
      · simp [Whole]

theorem whole_of_mem_itemsTokens
    (items : List SExpr) {token : SExprToken}
    (member : token ∈ itemsTokens items) : Whole token := by
  match items with
  | [] => cases member
  | item :: rest =>
      rw [itemsTokens, List.mem_append] at member
      rcases member with inside | later
      · exact whole_of_mem_tokens item inside
      · exact whole_of_mem_itemsTokens rest later

end

end SExpr

/-! ## What the count knows -/

namespace ScanState

/-- Is the scan outside of all tokens? -/
def isBetween : ScanState → Bool
  | between => true
  | _ => false

/-- Is the scan inside a string? -/
def isString : ScanState → Bool
  | inString _ _ => true
  | _ => false

/-- Is the scan inside a quoted symbol? -/
def isSymbol : ScanState → Bool
  | inSymbol _ _ => true
  | _ => false

end ScanState

/-- What is known of a text by the tokens and the state that a scan leads to. -/
def knowledge (completed : List SExprToken) (reached : ScanState) :
    Completeness where
  depth := balance completed
  started := completed.any (fun token => !token.isClosing) ||
    !reached.isBetween
  inString := reached.isString
  inSymbol := reached.isSymbol

theorem knowledge_enter
    (completed : List SExprToken) (started : Bool) (character : Char) :
    Completeness.advance ⟨balance completed, started, false, false⟩ character =
      ⟨balance (completed ++
          (ScanState.enter character 0).1.map PlacedToken.token),
        started || (((ScanState.enter character 0).1.map
            PlacedToken.token).any (fun token => !token.isClosing) ||
          !(ScanState.enter character 0).2.isBetween),
        (ScanState.enter character 0).2.isString,
        (ScanState.enter character 0).2.isSymbol⟩ := by
  unfold Completeness.advance
  by_cases opening : character = '('
  · subst opening
    simp [show ScanState.enter '(' 0 = ([⟨.opening, 0⟩], .between) from rfl,
      balance_append, balance, SExprToken.balance, SExprToken.isClosing,
      ScanState.isString, ScanState.isSymbol]
  by_cases closing : character = ')'
  · subst closing
    simp [show ScanState.enter ')' 0 = ([⟨.closing, 0⟩], .between) from rfl,
      balance_append, balance, SExprToken.balance, SExprToken.isClosing,
      ScanState.isBetween, ScanState.isString, ScanState.isSymbol,
      Int.sub_eq_add_neg]
  by_cases quote : character = '"'
  · subst quote
    simp [show ScanState.enter '"' 0 = ([], .inString [] 0) from rfl,
      ScanState.isBetween, ScanState.isString, ScanState.isSymbol]
  by_cases bar : character = '|'
  · subst bar
    simp [show ScanState.enter '|' 0 = ([], .inSymbol [] 0) from rfl,
      ScanState.isBetween, ScanState.isString, ScanState.isSymbol]
  by_cases blank : isBlank character = true
  · simp [enter_of_blank blank, blank, ScanState.isBetween,
      ScanState.isString, ScanState.isSymbol]
  · have plain : ScanState.endsAtom character = false := by
      simp [ScanState.endsAtom, opening, closing, quote, bar, blank]
    simp [enter_of_plain plain, blank, ScanState.isBetween,
      ScanState.isString, ScanState.isSymbol]

theorem knowledge_within
    {reached : ScanState} (inside : reached.isBetween = false)
    (completed : List SExprToken) :
    knowledge completed reached =
      ⟨balance completed, true, reached.isString, reached.isSymbol⟩ := by
  simp [knowledge, inside]

/-- A token that opens and closes nothing is seen in no count but the start. -/
theorem knowledge_after_token
    {token : SExprToken} (level : token.balance = 0)
    (completed further : List SExprToken) (reached : ScanState) :
    knowledge (completed ++ token :: further) reached =
      ⟨balance (completed ++ further), true, reached.isString,
        reached.isSymbol⟩ := by
  have notClosing : token.isClosing = false := by
    cases token with
    | closing => cases level
    | opening | atom | str | openString | openSymbol => rfl
  simp [knowledge, balance_append, balance, level, notClosing]

/-- The count takes a character as the scan does. -/
theorem knowledge_advance
    (completed : List SExprToken) (state : ScanState) (character : Char) :
    (knowledge completed state).advance character =
      knowledge
        (completed ++ (state.advance character 0).1.map PlacedToken.token)
        (state.advance character 0).2 := by
  cases state with
  | between =>
      have entered := knowledge_enter completed
        (completed.any (fun token => !token.isClosing)) character
      simpa [knowledge, ScanState.advance, ScanState.isBetween,
        ScanState.isString, ScanState.isSymbol, Bool.or_assoc] using entered
  | inAtom reversed start =>
      rw [knowledge_within rfl, ScanState.advance]
      split
      · rw [List.map_cons, knowledge_after_token rfl]
        exact knowledge_enter completed true character
      · next plain =>
          have entered := knowledge_enter completed true character
          rw [enter_of_plain (by simpa using plain)] at entered
          rw [knowledge_within rfl]
          exact entered
  | inString reversed start =>
      rw [knowledge_within rfl, ScanState.advance]
      split
      · next quote =>
          rw [knowledge_within rfl, List.map_nil, List.append_nil, quote]
          rfl
      · next other =>
          rw [knowledge_within rfl, List.map_nil, List.append_nil]
          unfold Completeness.advance
          simp [other, ScanState.isString, ScanState.isSymbol]
  | afterQuote reversed start =>
      rw [knowledge_within rfl, ScanState.advance]
      split
      · next quote =>
          rw [knowledge_within rfl, List.map_nil, List.append_nil, quote]
          rfl
      · rw [List.map_cons, knowledge_after_token rfl]
        exact knowledge_enter completed true character
  | inSymbol reversed start =>
      rw [knowledge_within rfl, ScanState.advance]
      split
      · next bar =>
          rw [List.map_singleton, knowledge_after_token rfl, bar,
            List.append_nil]
          rfl
      · next other =>
          rw [knowledge_within rfl, List.map_nil, List.append_nil]
          unfold Completeness.advance
          simp [other, ScanState.isString, ScanState.isSymbol]

theorem foldl_knowledge
    (characters : List Char) (completed : List SExprToken)
    (state : ScanState) :
    characters.foldl Completeness.advance (knowledge completed state) =
      knowledge (completed ++ (scan state characters).1)
        (scan state characters).2 := by
  induction characters generalizing completed state with
  | nil => simp [scan]
  | cons character rest induction =>
      rw [List.foldl_cons, knowledge_advance, induction, scan,
        List.append_assoc]

/-- A text is complete by the tokens it spells and where it ends. -/
theorem isComplete_eq (characters : List Char) :
    isComplete characters =
      (knowledge (scan .between characters).1
        (scan .between characters).2).holds := by
  rw [isComplete]
  exact congrArg Completeness.holds (foldl_knowledge characters [] .between)

/--
A complete text has something in it, leaves no list open, and does not end
inside a string or a quoted symbol.
-/
theorem isComplete_iff {characters : List Char} :
    isComplete characters = true ↔
      ((scan .between characters).1.any (fun token => !token.isClosing) = true ∨
        (scan .between characters).2.isBetween = false) ∧
      balance (scan .between characters).1 ≤ 0 ∧
      (scan .between characters).2.isString = false ∧
      (scan .between characters).2.isSymbol = false := by
  rw [isComplete_eq]
  simp only [Completeness.holds, Bool.and_eq_true, Bool.not_eq_true',
    decide_eq_true_iff, and_assoc]
  simp only [knowledge, Bool.or_eq_true, Bool.not_eq_true']

/-! ## Blanks at the end -/

/-- A scan that stands inside a token gives at least that token. -/
theorem spelled_ne_nil
    {state : ScanState} (inside : state.isBetween = false)
    (characters : List Char) : spelled state characters ≠ [] := by
  induction characters generalizing state with
  | nil =>
      cases state with
      | between => cases inside
      | inAtom | inString | afterQuote | inSymbol =>
          simp [spelled, scan, ScanState.finish]
  | cons character rest induction =>
      rw [spelled_cons]
      cases state with
      | between => cases inside
      | inAtom reversed start =>
          rw [ScanState.advance]
          split
          · simp
          · simpa using induction rfl
      | inString reversed start =>
          rw [ScanState.advance]
          split <;> simpa using induction rfl
      | afterQuote reversed start =>
          rw [ScanState.advance]
          split
          · simpa using induction rfl
          · simp
      | inSymbol reversed start =>
          rw [ScanState.advance]
          split
          · simp
          · simpa using induction rfl

theorem enter_cases (character : Char) :
    isBlank character = true ∨
      (ScanState.enter character 0).1 ≠ [] ∨
        (ScanState.enter character 0).2.isBetween = false := by
  unfold ScanState.enter
  split
  · next blank => exact Or.inl blank
  · right
    split
    · exact Or.inl (by simp)
    · exact Or.inl (by simp)
    all_goals exact Or.inr rfl

/-- What spells nothing is blank. -/
theorem blank_of_spelled_eq_nil
    {characters : List Char} (nothing : spelled .between characters = []) :
    ∀ character ∈ characters, isBlank character = true := by
  induction characters with
  | nil => simp
  | cons first rest induction =>
      have shape := nothing
      rw [spelled_cons, List.append_eq_nil_iff, List.map_eq_nil_iff] at shape
      rcases enter_cases first with blank | token | inside
      · rw [spelled_of_blank blank] at nothing
        intro character member
        rcases List.mem_cons.mp member with rfl | later
        · exact blank
        · exact induction nothing character later
      · exact absurd shape.1 token
      · exact absurd shape.2 (spelled_ne_nil inside rest)

/-! ## Lines -/

/-- Outside of quotes, the end of a line ends a token as the end of all does. -/
theorem scan_newline
    {state : ScanState} (notString : state.isString = false)
    (notSymbol : state.isSymbol = false) :
    scan state ['\n'] = (state.finish.map PlacedToken.token, .between) := by
  cases state with
  | between | inAtom | afterQuote => rfl
  | inString => cases notString
  | inSymbol => cases notSymbol

theorem not_within_of_spelled
    {characters : List Char} {expression : SExpr}
    (spells : spelled .between characters = expression.tokens) :
    (scan .between characters).2.isString = false ∧
      (scan .between characters).2.isSymbol = false := by
  have last : ∀ token ∈ (scan .between characters).2.finish.map
      PlacedToken.token, SExpr.Whole token := by
    intro token member
    apply expression.whole_of_mem_tokens
    rw [← spells]
    exact List.mem_append_right _ member
  cases reached : (scan .between characters).2 with
  | between | inAtom | afterQuote => exact ⟨rfl, rfl⟩
  | inString reversed start =>
      rw [reached] at last
      exact absurd rfl (last .openString (by simp [ScanState.finish])).1
  | inSymbol reversed start =>
      rw [reached] at last
      exact absurd rfl (last .openSymbol (by simp [ScanState.finish])).2

/-- After its line, nothing of an expression is left in progress. -/
theorem scan_line
    {characters : List Char} {expression : SExpr}
    (spells : spelled .between characters = expression.tokens) :
    scan .between (characters ++ ['\n']) = (expression.tokens, .between) := by
  rcases not_within_of_spelled spells with ⟨notString, notSymbol⟩
  rw [scan_append, scan_newline notString notSymbol, ← spells]
  rfl

/-- The line of an expression is complete. -/
theorem isComplete_line
    {characters : List Char} {expression : SExpr}
    (spells : spelled .between characters = expression.tokens) :
    isComplete (characters ++ ['\n']) = true := by
  have begun :
      expression.tokens.any (fun token => !token.isClosing) = true := by
    cases expression <;> simp [SExpr.tokens, SExprToken.isClosing]
  rw [isComplete_eq, scan_line spells]
  simp [knowledge, Completeness.holds, begun, SExpr.balance_tokens,
    ScanState.isString, ScanState.isSymbol]

/-- A line that is complete ends between tokens, and some are before it. -/
theorem scan_of_isComplete_line
    {line : List Char} (complete : isComplete (line ++ ['\n']) = true) :
    (scan .between (line ++ ['\n'])).2 = .between ∧
      (scan .between (line ++ ['\n'])).1 ≠ [] ∧
      balance (scan .between (line ++ ['\n'])).1 ≤ 0 := by
  rcases isComplete_iff.mp complete with
    ⟨started, closed, notString, notSymbol⟩
  have outside : (scan .between (line ++ ['\n'])).2 = .between := by
    rw [scan_append] at notString notSymbol ⊢
    generalize (scan .between line).2 = state at notString notSymbol ⊢
    cases state with
    | between | inAtom | afterQuote => rfl
    | inString => cases notString
    | inSymbol => cases notSymbol
  refine ⟨outside, ?_, closed⟩
  -- Between tokens only a token can have started anything.
  intro nothing
  rw [nothing, outside] at started
  simp [ScanState.isBetween] at started

/--
If a run of whole lines looks complete, and the text it begins can be read,
then only blanks are left of the text.
-/
theorem blank_of_isComplete_line
    {line left : List Char} {expression : SExpr}
    (spells : spelled .between (line ++ ['\n'] ++ left) = expression.tokens)
    (complete : isComplete (line ++ ['\n']) = true) :
    ∀ character ∈ left, isBlank character = true := by
  rcases scan_of_isComplete_line complete with ⟨outside, begun, closed⟩
  rw [spelled_append, outside] at spells
  exact blank_of_spelled_eq_nil
    (SExpr.eq_nil_of_balance_le spells.symm begun closed)

/-! ## Complete texts and readable ones -/

/-- The end of a line changes nothing in the count. -/
theorem isComplete_newline (characters : List Char) :
    isComplete (characters ++ ['\n']) = isComplete characters := by
  rw [isComplete, isComplete, List.foldl_append, List.foldl_cons,
    List.foldl_nil]
  generalize characters.foldl Completeness.advance .initial = state
  unfold Completeness.advance
  by_cases string : state.inString = true
  · simp [string]
  by_cases symbol : state.inSymbol = true
  · simp [string, symbol]
  simp [string, symbol, show isBlank '\n' = true by decide]

/-- A text that spells an expression is complete. -/
theorem isComplete_of_spelled
    {characters : List Char} {expression : SExpr}
    (spells : spelled .between characters = expression.tokens) :
    isComplete characters = true := by
  rw [← isComplete_newline]
  exact isComplete_line spells

/--
If a complete text begins one that spells an expression, then it spells an
expression itself.
-/
theorem exists_spelled_of_isComplete
    {front back : List Char} {expression : SExpr}
    (complete : isComplete front = true)
    (spells : spelled .between (front ++ back) = expression.tokens) :
    ∃ whole : SExpr, spelled .between front = whole.tokens := by
  rcases isComplete_iff.mp complete with
    ⟨started, closed, notString, notSymbol⟩
  rw [spelled_append] at spells
  have nothingLeft : (scan .between front).1 ≠ [] →
      spelled (scan .between front).2 back = [] :=
    fun begun => SExpr.eq_nil_of_balance_le spells.symm begun closed
  -- A token in progress is yet to come, so it is the only one.
  have alone : (scan .between front).2.isBetween = false →
      (scan .between front).1 = [] := by
    intro inside
    refine Decidable.byContradiction (fun begun => ?_)
    exact spelled_ne_nil inside back (nothingLeft begun)
  rw [spelled]
  rcases reached : scan .between front with ⟨completed, state⟩
  rw [reached] at spells started notString notSymbol nothingLeft alone
  cases state with
  | between =>
      have begun : completed ≠ [] := by
        rintro rfl
        simp [ScanState.isBetween] at started
      rw [nothingLeft begun, List.append_nil] at spells
      exact ⟨expression, by simpa [ScanState.finish] using spells⟩
  | inAtom reversed start =>
      refine ⟨.atom (String.ofList reversed.reverse), ?_⟩
      simpa [ScanState.finish, SExpr.tokens] using alone rfl
  | afterQuote reversed start =>
      refine ⟨.str (String.ofList reversed.reverse), ?_⟩
      simpa [ScanState.finish, SExpr.tokens] using alone rfl
  | inString => cases notString
  | inSymbol => cases notSymbol

/--
The count and the reader agree: what can be read is complete, and what is
complete and cannot be read stays unreadable, whatever comes after it.
-/
theorem completeness_agrees_with_reading (text : String) :
    ((∃ expression, SExpr.read text = .ok expression) →
      isComplete text.toList = true) ∧
    (isComplete text.toList = true →
      (∃ fault, SExpr.read text = .error fault) →
      ∀ rest : String, ∃ fault, SExpr.read (text ++ rest) = .error fault) := by
  constructor
  · rintro ⟨expression, read⟩
    exact isComplete_of_spelled (SExpr.read_eq_ok_iff.mp read)
  · rintro complete ⟨fault, unread⟩ rest
    cases continued : SExpr.read (text ++ rest) with
    | error later => exact ⟨later, rfl⟩
    | ok expression =>
        rw [SExpr.read_eq_ok_iff, String.toList_append] at continued
        rcases exists_spelled_of_isComplete complete continued with
          ⟨whole, spells⟩
        rw [SExpr.read_eq_ok_iff.mpr spells] at unread
        cases unread

/--
A string of one quote, glued to a list that is closed once too often: every
quote is closed by the count, and nothing can be added to it that makes sense.
-/
theorem overclosed_stays_unreadable :
    isComplete "\"\"\"\"(a))".toList = true ∧
      ∀ rest : String, ∃ fault,
        SExpr.read ("\"\"\"\"(a))" ++ rest) = .error fault := by
  have complete : isComplete "\"\"\"\"(a))".toList = true := by decide
  have unread : SExpr.read "\"\"\"\"(a))" = .error (.trailingInput 4) := rfl
  exact ⟨complete, (completeness_agrees_with_reading _).2 complete ⟨_, unread⟩⟩

end FlowWitness.Smt
