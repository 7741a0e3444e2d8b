import FlowWitness.Smt.SExpr
import FlowWitness.Text.Blank

/-!
# Reading s-expressions

A text is read in two steps, each of one pass: characters are grouped into
tokens with their offsets, and tokens into a tree.  A token that the text
ends in is kept as such, so that the tree reader reports the first fault in
the text, whichever step finds it.
-/

namespace FlowWitness.Smt

open FlowWitness.Text

/-! ## Tokens -/

/-- A token of an s-expression. -/
inductive SExprToken where
  | opening
  | closing
  | atom (text : List Char)
  | str (text : List Char)
  | openString
  | openSymbol
  deriving DecidableEq, Repr

/-- A token with the number of characters before it. -/
structure PlacedToken where
  token : SExprToken
  offset : Nat
  deriving DecidableEq, Repr

/--
Where the scan stands: between tokens, or inside a token with its characters
so far, the last one first, and its offset.  After a quote inside a string it
is not yet known whether the string has ended.
-/
inductive ScanState where
  | between
  | inAtom (reversed : List Char) (offset : Nat)
  | inString (reversed : List Char) (offset : Nat)
  | afterQuote (reversed : List Char) (offset : Nat)
  | inSymbol (reversed : List Char) (offset : Nat)
  deriving DecidableEq, Repr

namespace ScanState

/-- Start a token, or skip a blank, at a character between tokens. -/
def enter (character : Char) (offset : Nat) : List PlacedToken × ScanState :=
  if isBlank character then ([], between)
  else
    match character with
    | '(' => ([⟨.opening, offset⟩], between)
    | ')' => ([⟨.closing, offset⟩], between)
    | '"' => ([], inString [] offset)
    | '|' => ([], inSymbol [] offset)
    | other => ([], inAtom [other] offset)

/-- Does the character end an atom? -/
def endsAtom (character : Char) : Bool :=
  isBlank character || character == '(' || character == ')' ||
    character == '"' || character == '|'

/-- The scan after one more character, and the tokens it completes. -/
def advance (character : Char) (offset : Nat) :
    ScanState → List PlacedToken × ScanState
  | between => enter character offset
  | inAtom reversed start =>
    if endsAtom character then
      let (tokens, next) := enter character offset
      (⟨.atom reversed.reverse, start⟩ :: tokens, next)
    else ([], inAtom (character :: reversed) start)
  | inString reversed start =>
    if character = '"' then ([], afterQuote reversed start)
    else ([], inString (character :: reversed) start)
  | afterQuote reversed start =>
    if character = '"' then ([], inString ('"' :: reversed) start)
    else
      let (tokens, next) := enter character offset
      (⟨.str reversed.reverse, start⟩ :: tokens, next)
  | inSymbol reversed start =>
    if character = '|' then ([⟨.atom reversed.reverse, start⟩], between)
    else ([], inSymbol (character :: reversed) start)

/-- The token that the end of the text completes or cuts off. -/
def finish : ScanState → List PlacedToken
  | between => []
  | inAtom reversed start => [⟨.atom reversed.reverse, start⟩]
  | inString _ start => [⟨.openString, start⟩]
  | afterQuote reversed start => [⟨.str reversed.reverse, start⟩]
  | inSymbol _ start => [⟨.openSymbol, start⟩]

end ScanState

/-- The tokens of the characters from an offset on. -/
def tokensFrom (state : ScanState) (offset : Nat) :
    List Char → List PlacedToken
  | [] => state.finish
  | character :: rest =>
    let (tokens, next) := state.advance character offset
    tokens ++ tokensFrom next (offset + 1) rest

/-- The tokens of a text. -/
def tokens (characters : List Char) : List PlacedToken :=
  tokensFrom .between 0 characters

/-! ## Trees -/

/-- Why a text is not one s-expression. -/
inductive ReadError where
  | unexpectedEnd
  | unclosedList
  | unexpectedClosing (offset : Nat)
  | unterminatedString
  | unterminatedSymbol
  | trailingInput (offset : Nat)
  deriving DecidableEq, Repr

/-- The text of a read error. -/
def ReadError.message : ReadError → String
  | .unexpectedEnd => "unexpected end of input"
  | .unclosedList => "unclosed list"
  | .unexpectedClosing offset => "unexpected ')' at offset " ++ toString offset
  | .unterminatedString => "unterminated string literal"
  | .unterminatedSymbol => "unterminated quoted symbol"
  | .trailingInput offset => "trailing input at offset " ++ toString offset

namespace SExpr

/--
Read one expression from the tokens.  `pending` holds the items so far of the
lists that are open, innermost list and last item first.
-/
def readFrom : (pending : List (List SExpr)) → List PlacedToken →
    Except ReadError (SExpr × List PlacedToken)
  | [], [] => .error .unexpectedEnd
  | _ :: _, [] => .error .unclosedList
  | pending, ⟨.opening, _⟩ :: rest => readFrom ([] :: pending) rest
  | [], ⟨.closing, offset⟩ :: _ => .error (.unexpectedClosing offset)
  | [items], ⟨.closing, _⟩ :: rest => .ok (.list items.reverse, rest)
  | items :: outer :: pending, ⟨.closing, _⟩ :: rest =>
    readFrom ((.list items.reverse :: outer) :: pending) rest
  | [], ⟨.atom text, _⟩ :: rest => .ok (.atom (String.ofList text), rest)
  | items :: pending, ⟨.atom text, _⟩ :: rest =>
    readFrom ((.atom (String.ofList text) :: items) :: pending) rest
  | [], ⟨.str text, _⟩ :: rest => .ok (.str (String.ofList text), rest)
  | items :: pending, ⟨.str text, _⟩ :: rest =>
    readFrom ((.str (String.ofList text) :: items) :: pending) rest
  | _, ⟨.openString, _⟩ :: _ => .error .unterminatedString
  | _, ⟨.openSymbol, _⟩ :: _ => .error .unterminatedSymbol

/-- Read the text as exactly one expression. -/
def read (text : String) : Except ReadError SExpr :=
  match readFrom [] (tokens text.toList) with
  | .error fault => .error fault
  | .ok (expression, []) => .ok expression
  | .ok (_, next :: _) => .error (.trailingInput next.offset)

end SExpr

/-! ## Completeness -/

/-- What the scan for a complete response knows of the text so far. -/
structure Completeness where
  depth : Int
  started : Bool
  inString : Bool
  inSymbol : Bool
  deriving DecidableEq, Repr

namespace Completeness

/-- Nothing read yet. -/
def initial : Completeness := ⟨0, false, false, false⟩

/--
Take one more character.  A doubled quote closes and reopens its string, so
no lookahead is needed.
-/
def advance (state : Completeness) (character : Char) : Completeness :=
  if state.inString then
    if character = '"' then { state with inString := false } else state
  else if state.inSymbol then
    if character = '|' then { state with inSymbol := false } else state
  else
    match character with
    | '"' => { state with inString := true, started := true }
    | '|' => { state with inSymbol := true, started := true }
    | '(' => { state with depth := state.depth + 1, started := true }
    | ')' => { state with depth := state.depth - 1 }
    | other => if isBlank other then state else { state with started := true }

/-- Has something been read, with nothing left open? -/
def holds (state : Completeness) : Bool :=
  state.started && state.depth ≤ 0 && !state.inString && !state.inSymbol

end Completeness

/-- Can reading stop here? -/
def isComplete (characters : List Char) : Bool :=
  (characters.foldl Completeness.advance Completeness.initial).holds

end FlowWitness.Smt
