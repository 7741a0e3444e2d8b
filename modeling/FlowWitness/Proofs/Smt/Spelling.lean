import FlowWitness.Smt.SExprReader

/-!
# What a text spells

Reading a text has two steps, and each is given here a description of its
own.  The scan of a text spells tokens, whatever their offsets; and an
expression has tokens, those of its items between an opening and a closing
one.  A text is read as an expression exactly when it spells the tokens of
the expression.
-/

namespace FlowWitness.Smt

open FlowWitness.Text

/-! ## Scans without offsets -/

/-- The scan state with its offset forgotten. -/
def ScanState.unplaced : ScanState → ScanState
  | between => between
  | inAtom reversed _ => inAtom reversed 0
  | inString reversed _ => inString reversed 0
  | afterQuote reversed _ => afterQuote reversed 0
  | inSymbol reversed _ => inSymbol reversed 0

/-- The tokens that a run of characters completes, and where it leads. -/
def scan (state : ScanState) : List Char → List SExprToken × ScanState
  | [] => ([], state)
  | character :: rest =>
    let (completed, next) := state.advance character 0
    let (further, last) := scan next rest
    (completed.map PlacedToken.token ++ further, last)

/-- The tokens of a text, the last one included. -/
def spelled (state : ScanState) (characters : List Char) : List SExprToken :=
  (scan state characters).1 ++
    (scan state characters).2.finish.map PlacedToken.token

namespace ScanState

theorem enter_unplaced (character : Char) (offset : Nat) :
    (enter character offset).1.map PlacedToken.token =
        (enter character 0).1.map PlacedToken.token ∧
      (enter character offset).2.unplaced = (enter character 0).2 := by
  unfold enter
  split
  · exact ⟨rfl, rfl⟩
  · split <;> exact ⟨rfl, rfl⟩

/-- The offset of a character has no influence on the token it belongs to. -/
theorem advance_unplaced (character : Char) (offset : Nat) (state : ScanState) :
    (state.advance character offset).1.map PlacedToken.token =
        (state.unplaced.advance character 0).1.map PlacedToken.token ∧
      (state.advance character offset).2.unplaced =
        (state.unplaced.advance character 0).2 := by
  have entered := enter_unplaced character offset
  cases state with
  | between => exact entered
  | inAtom reversed start =>
      simp only [advance, unplaced]
      split
      · exact ⟨by simp [entered.1], entered.2⟩
      · exact ⟨rfl, rfl⟩
  | inString reversed start =>
      simp only [advance, unplaced]
      split <;> exact ⟨rfl, rfl⟩
  | afterQuote reversed start =>
      simp only [advance, unplaced]
      split
      · exact ⟨rfl, rfl⟩
      · exact ⟨by simp [entered.1], entered.2⟩
  | inSymbol reversed start =>
      simp only [advance, unplaced]
      split <;> exact ⟨rfl, rfl⟩

theorem finish_unplaced (state : ScanState) :
    state.finish.map PlacedToken.token =
      state.unplaced.finish.map PlacedToken.token := by
  cases state <;> rfl

end ScanState

theorem spelled_cons
    (state : ScanState) (character : Char) (rest : List Char) :
    spelled state (character :: rest) =
      (state.advance character 0).1.map PlacedToken.token ++
        spelled (state.advance character 0).2 rest := by
  simp only [spelled, scan, List.append_assoc]

theorem map_token_tokensFrom
    (characters : List Char) (state : ScanState) (offset : Nat) :
    (tokensFrom state offset characters).map PlacedToken.token =
      spelled state.unplaced characters := by
  induction characters generalizing state offset with
  | nil => exact state.finish_unplaced
  | cons character rest induction =>
      have step := state.advance_unplaced character offset
      rw [tokensFrom, spelled_cons]
      simp only
      rw [List.map_append, induction, step.1, step.2]

/-- The tokens of a text are those that it spells. -/
theorem map_token_tokens (characters : List Char) :
    (tokens characters).map PlacedToken.token = spelled .between characters :=
  map_token_tokensFrom characters .between 0

theorem scan_append (state : ScanState) (front back : List Char) :
    scan state (front ++ back) =
      ((scan state front).1 ++ (scan (scan state front).2 back).1,
        (scan (scan state front).2 back).2) := by
  induction front generalizing state with
  | nil => rfl
  | cons character rest induction =>
      simp only [List.cons_append, scan, induction, List.append_assoc]

theorem spelled_append (state : ScanState) (front back : List Char) :
    spelled state (front ++ back) =
      (scan state front).1 ++ spelled (scan state front).2 back := by
  simp only [spelled, scan_append, List.append_assoc]

/-! ## Between tokens -/

theorem enter_of_blank
    {character : Char} (blank : isBlank character = true) (offset : Nat) :
    ScanState.enter character offset = ([], .between) := by
  unfold ScanState.enter
  rw [if_pos blank]

theorem enter_of_plain
    {character : Char} (plain : ScanState.endsAtom character = false) :
    ScanState.enter character 0 = ([], .inAtom [character] 0) := by
  simp only [ScanState.endsAtom, Bool.or_eq_false_iff, beq_eq_false_iff_ne]
    at plain
  unfold ScanState.enter
  split
  · next blank => simp [blank] at plain
  · split <;> simp_all

theorem spelled_of_blank
    {character : Char} (blank : isBlank character = true) (rest : List Char) :
    spelled .between (character :: rest) = spelled .between rest := by
  rw [spelled_cons, ScanState.advance, enter_of_blank blank]
  rfl

theorem scan_of_blanks
    {characters : List Char}
    (blank : ∀ character ∈ characters, isBlank character = true) :
    scan .between characters = ([], .between) := by
  induction characters with
  | nil => rfl
  | cons character rest induction =>
      have remaining := induction (fun other member =>
        blank other (List.mem_cons_of_mem character member))
      rw [scan, ScanState.advance,
        enter_of_blank (blank character List.mem_cons_self)]
      simp only [remaining]
      rfl

/-- Blanks in front of a text spell nothing. -/
theorem spelled_blanks_append
    {blanks : List Char}
    (blank : ∀ character ∈ blanks, isBlank character = true)
    (rest : List Char) :
    spelled .between (blanks ++ rest) = spelled .between rest := by
  rw [spelled_append, scan_of_blanks blank]
  rfl

theorem spelled_opening (rest : List Char) :
    spelled .between ('(' :: rest) = .opening :: spelled .between rest := by
  rw [spelled_cons]
  rfl

theorem spelled_closing (rest : List Char) :
    spelled .between (')' :: rest) = .closing :: spelled .between rest := by
  rw [spelled_cons]
  rfl

theorem spelled_quote (rest : List Char) :
    spelled .between ('"' :: rest) = spelled (.inString [] 0) rest := by
  rw [spelled_cons]
  rfl

theorem spelled_bar (rest : List Char) :
    spelled .between ('|' :: rest) = spelled (.inSymbol [] 0) rest := by
  rw [spelled_cons]
  rfl

/-! ## Tokens in a text -/

theorem spelled_inAtom
    {characters rest : List Char} (reversed : List Char)
    (plain : ∀ character ∈ characters, ScanState.endsAtom character = false)
    (ended : ∀ character ∈ rest.head?, ScanState.endsAtom character = true) :
    spelled (.inAtom reversed 0) (characters ++ rest) =
      .atom (reversed.reverse ++ characters) :: spelled .between rest := by
  induction characters generalizing reversed with
  | nil =>
      rw [List.nil_append, List.append_nil]
      cases rest with
      | nil => rfl
      | cons next rest =>
          rw [spelled_cons, ScanState.advance, if_pos (ended next rfl),
            spelled_cons]
          rfl
  | cons character others induction =>
      have remaining := induction (character :: reversed)
        (fun other member => plain other (List.mem_cons_of_mem _ member))
      rw [List.cons_append, spelled_cons, ScanState.advance,
        if_neg (by simp [plain character List.mem_cons_self])]
      simpa using remaining

/-- A run of plain characters is one atom, if it goes as far as it can. -/
theorem spelled_atom
    {characters rest : List Char} (nonempty : characters ≠ [])
    (plain : ∀ character ∈ characters, ScanState.endsAtom character = false)
    (ended : ∀ character ∈ rest.head?, ScanState.endsAtom character = true) :
    spelled .between (characters ++ rest) =
      .atom characters :: spelled .between rest := by
  rcases characters with _ | ⟨first, others⟩
  · exact absurd rfl nonempty
  · have inside := spelled_inAtom [first]
      (fun other member => plain other (List.mem_cons_of_mem _ member)) ended
    rw [List.cons_append, spelled_cons, ScanState.advance,
      enter_of_plain (plain first List.mem_cons_self)]
    simpa using inside

theorem spelled_inSymbol
    {characters : List Char} (reversed rest : List Char)
    (unbarred : '|' ∉ characters) :
    spelled (.inSymbol reversed 0) (characters ++ '|' :: rest) =
      .atom (reversed.reverse ++ characters) :: spelled .between rest := by
  induction characters generalizing reversed with
  | nil =>
      rw [List.nil_append, List.append_nil, spelled_cons, ScanState.advance,
        if_pos rfl]
      rfl
  | cons character others induction =>
      rw [List.mem_cons, not_or] at unbarred
      have remaining := induction (character :: reversed) unbarred.2
      rw [List.cons_append, spelled_cons, ScanState.advance,
        if_neg (Ne.symm unbarred.1)]
      simpa using remaining

/-- A text between bars is one atom, if it has no bar. -/
theorem spelled_symbol
    {characters : List Char} (rest : List Char) (unbarred : '|' ∉ characters) :
    spelled .between ('|' :: (characters ++ '|' :: rest)) =
      .atom characters :: spelled .between rest := by
  rw [spelled_bar, spelled_inSymbol [] rest unbarred]
  rfl

theorem spelled_inString
    (characters reversed : List Char) {rest : List Char}
    (ended : rest.head? ≠ some '"') :
    spelled (.inString reversed 0)
        (Term.doubleQuotes characters ++ '"' :: rest) =
      .str (reversed.reverse ++ characters) :: spelled .between rest := by
  induction characters generalizing reversed with
  | nil =>
      rw [Term.doubleQuotes, List.nil_append, List.append_nil, spelled_cons,
        ScanState.advance, if_pos rfl]
      cases rest with
      | nil => rfl
      | cons next rest =>
          have other : next ≠ '"' := by simpa using ended
          rw [spelled_cons, ScanState.advance, if_neg other, spelled_cons]
          rfl
  | cons character others induction =>
      by_cases quote : character = '"'
      · subst quote
        have remaining := induction ('"' :: reversed)
        rw [Term.doubleQuotes, List.cons_append, List.cons_append,
          spelled_cons, ScanState.advance, if_pos rfl, spelled_cons,
          ScanState.advance, if_pos rfl]
        simpa using remaining
      · have remaining := induction (character :: reversed)
        rw [Term.doubleQuotes, List.cons_append, spelled_cons,
          ScanState.advance, if_neg quote]
        · simpa using remaining
        · exact quote

/-- A text in quotes, with its own quotes doubled, is one string. -/
theorem spelled_literal
    (characters : List Char) {rest : List Char}
    (ended : rest.head? ≠ some '"') :
    spelled .between ('"' :: (Term.doubleQuotes characters ++ '"' :: rest)) =
      .str characters :: spelled .between rest := by
  rw [spelled_quote, spelled_inString characters [] ended]
  rfl

/-! ## The tokens of an expression -/

namespace SExpr

mutual

/-- The tokens of an expression. -/
def tokens : SExpr → List SExprToken
  | atom text => [.atom text.toList]
  | str text => [.str text.toList]
  | list items => .opening :: (itemsTokens items ++ [.closing])

/-- The tokens of items, one after another. -/
def itemsTokens : List SExpr → List SExprToken
  | [] => []
  | item :: rest => item.tokens ++ itemsTokens rest

end

theorem itemsTokens_append (first second : List SExpr) :
    itemsTokens (first ++ second) =
      itemsTokens first ++ itemsTokens second := by
  induction first with
  | nil => rfl
  | cons item rest induction =>
      rw [List.cons_append, itemsTokens, itemsTokens, induction,
        List.append_assoc]

/-- The tokens that have been read of the lists that are open. -/
def pendingTokens : List (List SExpr) → List SExprToken
  | [] => []
  | items :: outer =>
    pendingTokens outer ++ .opening :: itemsTokens items.reverse

theorem pendingTokens_item
    (item : SExpr) (items : List SExpr) (outer : List (List SExpr)) :
    pendingTokens ((item :: items) :: outer) =
      pendingTokens (items :: outer) ++ item.tokens := by
  simp [pendingTokens, itemsTokens_append, itemsTokens]

/-! ## Reading takes the tokens of an expression -/

/-- What has been read, before and now, are the tokens of the expression. -/
theorem tokens_of_readFrom
    {pending : List (List SExpr)} {given rest : List PlacedToken}
    {expression : SExpr}
    (read : readFrom pending given = .ok (expression, rest)) :
    ∃ taken, given = taken ++ rest ∧
      expression.tokens =
        pendingTokens pending ++ taken.map PlacedToken.token := by
  fun_induction readFrom pending given with
  | case1 => cases read
  | case2 => cases read
  | case3 pending offset remaining induction =>
      rcases induction read with ⟨taken, rfl, whole⟩
      refine ⟨⟨.opening, offset⟩ :: taken, rfl, ?_⟩
      simpa [pendingTokens, itemsTokens] using whole
  | case4 => cases read
  | case5 items offset remaining =>
      cases read
      refine ⟨[⟨.closing, offset⟩], rfl, ?_⟩
      simp [tokens, pendingTokens]
  | case6 items outer pending offset remaining induction =>
      rcases induction read with ⟨taken, rfl, whole⟩
      refine ⟨⟨.closing, offset⟩ :: taken, rfl, ?_⟩
      rw [whole, pendingTokens_item]
      simp [tokens, pendingTokens]
  | case7 text offset remaining =>
      cases read
      exact ⟨[⟨.atom text, offset⟩], rfl, by simp [tokens, pendingTokens]⟩
  | case8 items pending text offset remaining induction =>
      rcases induction read with ⟨taken, rfl, whole⟩
      refine ⟨⟨.atom text, offset⟩ :: taken, rfl, ?_⟩
      rw [whole, pendingTokens_item]
      simp [tokens]
  | case9 text offset remaining =>
      cases read
      exact ⟨[⟨.str text, offset⟩], rfl, by simp [tokens, pendingTokens]⟩
  | case10 items pending text offset remaining induction =>
      rcases induction read with ⟨taken, rfl, whole⟩
      refine ⟨⟨.str text, offset⟩ :: taken, rfl, ?_⟩
      rw [whole, pendingTokens_item]
      simp [tokens]
  | case11 => cases read
  | case12 => cases read

/-- What follows an expression once it has been read whole. -/
def resume (expression : SExpr) (rest : List PlacedToken) :
    List (List SExpr) → Except ReadError (SExpr × List PlacedToken)
  | [] => .ok (expression, rest)
  | items :: outer => readFrom ((expression :: items) :: outer) rest

mutual

/-- The tokens of an expression are read as the expression. -/
theorem readFrom_tokens
    (expression : SExpr) (pending : List (List SExpr))
    {taken : List PlacedToken} (rest : List PlacedToken)
    (given : taken.map PlacedToken.token = expression.tokens) :
    readFrom pending (taken ++ rest) = resume expression rest pending := by
  match expression with
  | .atom text =>
      rcases List.map_eq_singleton_iff.mp given with ⟨⟨_, offset⟩, rfl, rfl⟩
      cases pending <;> simp [readFrom, resume]
  | .str text =>
      rcases List.map_eq_singleton_iff.mp given with ⟨⟨_, offset⟩, rfl, rfl⟩
      cases pending <;> simp [readFrom, resume]
  | .list items =>
      rw [tokens] at given
      rcases List.map_eq_cons_iff.mp given with
        ⟨⟨_, start⟩, inside, rfl, rfl, innerGiven⟩
      rcases List.map_eq_append_iff.mp innerGiven with
        ⟨among, ending, rfl, amongGiven, last⟩
      rcases List.map_eq_singleton_iff.mp last with ⟨⟨_, finish⟩, rfl, rfl⟩
      rw [List.cons_append, List.append_assoc]
      have inner := readFrom_itemsTokens items [] pending
        ([⟨.closing, finish⟩] ++ rest) amongGiven
      cases pending <;>
        simpa [readFrom, resume] using inner

/-- The tokens of items are read as items of the innermost list. -/
theorem readFrom_itemsTokens
    (items : List SExpr) (before : List SExpr) (outer : List (List SExpr))
    {taken : List PlacedToken} (rest : List PlacedToken)
    (given : taken.map PlacedToken.token = itemsTokens items) :
    readFrom (before :: outer) (taken ++ rest) =
      readFrom ((items.reverse ++ before) :: outer) rest := by
  match items with
  | [] =>
      rw [List.map_eq_nil_iff.mp given]
      rfl
  | item :: others =>
      rw [itemsTokens] at given
      rcases List.map_eq_append_iff.mp given with
        ⟨first, remaining, rfl, firstGiven, remainingGiven⟩
      rw [List.append_assoc, readFrom_tokens item _ _ firstGiven, resume,
        readFrom_itemsTokens others _ _ _ remainingGiven]
      simp

end

/-- A text is read as the expression whose tokens it spells. -/
theorem read_eq_ok_iff {text : String} {expression : SExpr} :
    read text = .ok expression ↔
      spelled .between text.toList = expression.tokens := by
  rw [← map_token_tokens, read]
  constructor
  · intro result
    split at result
    · cases result
    · next whole =>
        cases result
        rcases tokens_of_readFrom whole with ⟨taken, same, given⟩
        rw [same, given, List.append_nil]
        rfl
    · cases result
  · intro given
    have whole := readFrom_tokens expression [] [] given
    rw [List.append_nil] at whole
    rw [whole]
    rfl

end SExpr

end FlowWitness.Smt
