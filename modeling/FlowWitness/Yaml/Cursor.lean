/-!
# Places in a YAML document

The characters of a document, and a cursor that moves over them and knows its
line and column.  Five characters end a line; a carriage return and a line
feed together end one line.
-/

namespace FlowWitness.Yaml

/-! ## Characters -/

/-- Is this a character that a document may hold? -/
def isAllowed (character : Char) : Bool :=
  let code := character.toNat
  code == 0x09 || code == 0x0A || code == 0x0D || (0x20 ≤ code && code ≤ 0x7E) ||
    code == 0x85 || (0xA0 ≤ code && code ≤ 0xD7FF) ||
    (0xE000 ≤ code && code ≤ 0xFFFD) || 0x10000 ≤ code

/-- Does the character end a line? -/
def isBreak (character : Char) : Bool :=
  let code := character.toNat
  code == 0x0A || code == 0x0D || code == 0x85 || code == 0x2028 || code == 0x2029

/-- Is the character a space or a tab? -/
def isGap (character : Char) : Bool :=
  character == ' ' || character == '\t'

/-- Is this a letter, a digit, a low line or a hyphen? -/
def isNameCharacter (character : Char) : Bool :=
  character.isAlphanum || character == '_' || character == '-'

/-- Does a word end before this character, or before the end of the text? -/
def endsWord : Option Char → Bool
  | none => true
  | some character => isGap character || isBreak character

/-! ## Cursors -/

/-- What is still to be read, and where it begins. -/
structure Cursor where
  rest : List Char
  index : Nat
  line : Nat
  column : Nat
  deriving DecidableEq, Repr

namespace Cursor

/-- The beginning of a text. -/
def start (characters : List Char) : Cursor := ⟨characters, 0, 0, 0⟩

/-- The next character. -/
def next? (cursor : Cursor) : Option Char := cursor.rest.head?

/-- The character after the next one. -/
def second? (cursor : Cursor) : Option Char := cursor.rest[1]?

/-- Is this the next character? -/
def isAt (cursor : Cursor) (character : Char) : Bool :=
  cursor.next? == some character

/-- Is the next character one of these? -/
def isAtAny (cursor : Cursor) (characters : List Char) : Bool :=
  cursor.next?.any characters.contains

/-- Pass over characters of one line. -/
def advance (cursor : Cursor) (count : Nat) : Cursor :=
  ⟨cursor.rest.drop count, cursor.index + count, cursor.line,
    cursor.column + count⟩

/-- Take characters of one line as long as they satisfy a test. -/
def takeWhile (cursor : Cursor) (test : Char → Bool) : List Char × Cursor :=
  let taken := cursor.rest.takeWhile test
  (taken, cursor.advance taken.length)

/-- Pass over characters of one line as long as they satisfy a test. -/
def skipWhile (cursor : Cursor) (test : Char → Bool) : Cursor :=
  (cursor.takeWhile test).2

/-- The rest of the line. -/
def takeLine (cursor : Cursor) : List Char × Cursor :=
  cursor.takeWhile (fun character => !isBreak character)

/-- The beginning of the next line, past a break of some characters. -/
def newLine (cursor : Cursor) (count : Nat) : Cursor :=
  ⟨cursor.rest.drop count, cursor.index + count, cursor.line + 1, 0⟩

/--
Take the line break at the cursor, if there is one.  All breaks count as line
feeds, except the two separators, which stay what they are.
-/
def takeBreak (cursor : Cursor) : List Char × Cursor :=
  match cursor.rest with
  | '\r' :: '\n' :: _ => (['\n'], cursor.newLine 2)
  | character :: _ =>
    if isBreak character then
      (if 0x2028 ≤ character.toNat then [character] else ['\n'],
        cursor.newLine 1)
    else ([], cursor)
  | [] => ([], cursor)

/-- Does a line begin here whose first word is this mark? -/
def isAtMark (cursor : Cursor) (mark : List Char) : Bool :=
  cursor.column == 0 && mark.isPrefixOf cursor.rest &&
    endsWord cursor.rest[mark.length]?

/-- Does a document start or end here? -/
def isAtBoundary (cursor : Cursor) : Bool :=
  cursor.isAtMark ['-', '-', '-'] || cursor.isAtMark ['.', '.', '.']

end Cursor

end FlowWitness.Yaml
