import FlowWitness.Text.Numeral
import FlowWitness.Yaml.Cursor

/-!
# Reading YAML scalars

The five ways of writing a text.  In plain and quoted scalars a single line
break reads as a space, and of several breaks the first is dropped; the
separators, which are breaks too, are kept.  In block scalars the indentation
is dropped, and a folded block also joins its lines.
-/

namespace FlowWitness.Yaml

open FlowWitness.Text

/-- How a scalar is written. -/
inductive ScalarStyle where
  | plain
  | singleQuoted
  | doubleQuoted
  | literal
  | folded
  deriving DecidableEq, Repr

/-! ## Gaps between words -/

/--
What lies between two words: spaces, or a first line break and further ones.
A gap is broken once it has reached another line.
-/
structure Gap where
  spaces : List Char
  leading : List Char
  trailing : List Char
  broken : Bool
  deriving DecidableEq, Repr

namespace Gap

/-- A gap without characters. -/
def start (broken : Bool) : Gap := ⟨[], [], [], broken⟩

/-- How line breaks read: one line feed as a space. -/
def fold (leading trailing : List Char) : List Char :=
  match leading with
  | '\n' :: _ => if trailing.isEmpty then [' '] else trailing
  | _ => leading ++ trailing

/-- How a gap reads. -/
def text (gap : Gap) : List Char :=
  if gap.broken then fold gap.leading gap.trailing else gap.spaces

/-- Add a line break. -/
def addBreak (gap : Gap) (lineBreak : List Char) : Gap :=
  if gap.broken then { gap with trailing := gap.trailing ++ lineBreak }
  else { gap with spaces := [], leading := lineBreak, broken := true }

/-- Add a space or a tab; at the beginning of a line it is indentation. -/
def addSpace (gap : Gap) (character : Char) : Gap :=
  if gap.broken then gap else { gap with spaces := gap.spaces ++ [character] }

/--
Read on through spaces and line breaks.  At the beginning of a line there may
be no tab before the column `indent`.
-/
def read (indent : Int) : Nat → Gap → Cursor → Option (Gap × Cursor)
  | 0, gap, cursor => some (gap, cursor)
  | rounds + 1, gap, cursor =>
    match cursor.next? with
    | none => some (gap, cursor)
    | some character =>
      if isGap character then
        if gap.broken && character == '\t' && (cursor.column : Int) < indent then
          none
        else read indent rounds (gap.addSpace character) (cursor.advance 1)
      else if isBreak character then
        let (lineBreak, after) := cursor.takeBreak
        read indent rounds (gap.addBreak lineBreak) after
      else some (gap, cursor)

end Gap

/-! ## Plain scalars -/

/-- The characters that end a word between brackets. -/
def flowMarks : List Char := [',', '[', ']', '{', '}']

/--
The next word of a plain scalar, up to a gap, a colon before a gap, or, between
brackets, a mark.  Between brackets a colon may not stand before a mark.
-/
def plainWord (inFlow : Bool) : List Char → Option (List Char)
  | [] => some []
  | character :: rest =>
    if isGap character || isBreak character then some []
    else if character == ':' && endsWord rest.head? then some []
    else if inFlow && character == ':' &&
        rest.head?.any (fun next => next == '?' || flowMarks.contains next) then
      none
    else if inFlow && flowMarks.contains character then some []
    else (plainWord inFlow rest).map (fun word => character :: word)

/--
Read on in a plain scalar after the words in `text`.  The scalar ends at a
comment, at the end of the document, at a line that is not indented enough,
or where a word ends without a gap.  The answer also says whether the gap at
its end reached another line.
-/
def readPlainFrom (indent : Int) (inFlow : Bool) :
    Nat → (text : List Char) → Cursor → Option (List Char × Bool × Cursor)
  | 0, text, cursor => some (text, false, cursor)
  | rounds + 1, text, cursor => do
    if !endsWord cursor.next? || cursor.rest.isEmpty then
      return (text, false, cursor)
    let (gap, after) ← Gap.read indent cursor.rest.length (.start false) cursor
    if !inFlow && (after.column : Int) < indent || after.isAtBoundary ||
        after.isAt '#' then
      return (text, gap.broken, after)
    let word ← plainWord inFlow after.rest
    if word.isEmpty then return (text, gap.broken, after)
    readPlainFrom indent inFlow rounds (text ++ gap.text ++ word)
      (after.advance word.length)

/-- Read a plain scalar; `parent` is the column of what it belongs to. -/
def readPlain (parent : Int) (inFlow : Bool) (cursor : Cursor) :
    Option (List Char × Bool × Cursor) := do
  let word ← plainWord inFlow cursor.rest
  readPlainFrom (parent + 1) inFlow cursor.rest.length word
    (cursor.advance word.length)

/-! ## Quoted scalars -/

/-- The character with a code, if there is one. -/
def characterOf? (code : Nat) : Option Char :=
  if code < 0xD800 ∨ (0xDFFF < code ∧ code ≤ 0x10FFFF) then
    some (Char.ofNat code)
  else none

/-- A character given by hexadecimal digits. -/
def readCode (digits : Nat) (characters : List Char) :
    Option (Char × List Char) := do
  let spelled := characters.take digits
  if spelled.length < digits then none
  else
    let code ← readDigits 16 spelled
    return (← characterOf? code, characters.drop digits)

/-- The character that an escape stands for, from what follows the backslash. -/
def readEscape : List Char → Option (Char × List Char)
  | '0' :: rest => some (Char.ofNat 0x00, rest)
  | 'a' :: rest => some (Char.ofNat 0x07, rest)
  | 'b' :: rest => some (Char.ofNat 0x08, rest)
  | 't' :: rest => some ('\t', rest)
  | '\t' :: rest => some ('\t', rest)
  | 'n' :: rest => some ('\n', rest)
  | 'v' :: rest => some (Char.ofNat 0x0B, rest)
  | 'f' :: rest => some (Char.ofNat 0x0C, rest)
  | 'r' :: rest => some ('\r', rest)
  | 'e' :: rest => some (Char.ofNat 0x1B, rest)
  | ' ' :: rest => some (' ', rest)
  | '"' :: rest => some ('"', rest)
  | '/' :: rest => some ('/', rest)
  | '\\' :: rest => some ('\\', rest)
  | 'N' :: rest => some (Char.ofNat 0x85, rest)
  | '_' :: rest => some (Char.ofNat 0xA0, rest)
  | 'L' :: rest => some (Char.ofNat 0x2028, rest)
  | 'P' :: rest => some (Char.ofNat 0x2029, rest)
  | 'x' :: rest => readCode 2 rest
  | 'u' :: rest => readCode 4 rest
  | 'U' :: rest => readCode 8 rest
  | _ => none

/--
The next word between quotes, up to a gap or the closing quote, and what
follows it.  Between double quotes a backslash escapes, and at the end of a
line ends the word.
-/
def quotedWord (quote : Char) : Nat → List Char → Option (List Char × List Char)
  | 0, characters => some ([], characters)
  | rounds + 1, characters =>
    match characters with
    | [] => some ([], [])
    | character :: rest =>
      if isGap character || isBreak character then some ([], characters)
      else if character == quote then
        if quote == '\'' && rest.head? == some '\'' then
          (quotedWord quote rounds (rest.drop 1)).map (fun (word, after) =>
            ('\'' :: word, after))
        else some ([], characters)
      else if quote == '"' && character == '\\' then
        if rest.head?.any isBreak then some ([], characters)
        else do
          let (escaped, further) ← readEscape rest
          let (word, after) ← quotedWord quote rounds further
          return (escaped :: word, after)
      else
        (quotedWord quote rounds rest).map (fun (word, after) =>
          (character :: word, after))

/-- Read on between quotes after the words in `text`. -/
def readQuotedFrom (quote : Char) :
    Nat → (text : List Char) → Cursor → Option (List Char × Cursor)
  | 0, _, _ => none
  | rounds + 1, text, cursor => do
    if cursor.isAtBoundary || cursor.rest.isEmpty then none
    let (word, following) ← quotedWord quote cursor.rest.length cursor.rest
    let after := cursor.advance (cursor.rest.length - following.length)
    let escapesBreak := after.isAt '\\'
    let onward := if escapesBreak then (after.advance 1).takeBreak.2 else after
    if onward.isAt quote then return (text ++ word, onward.advance 1)
    let (gap, beyond) ←
      Gap.read 0 onward.rest.length (.start escapesBreak) onward
    readQuotedFrom quote rounds (text ++ word ++ gap.text) beyond

/-- Read a quoted scalar from its opening quote. -/
def readQuoted (quote : Char) (cursor : Cursor) : Option (List Char × Cursor) :=
  readQuotedFrom quote cursor.rest.length [] (cursor.advance 1)

/-! ## Block scalars -/

/-- Which line breaks at the end of a block belong to it. -/
inductive Chomping where
  | strip
  | clip
  | keep
  deriving DecidableEq, Repr

/-- Read a chomping mark. -/
def readChomping (cursor : Cursor) : Option (Chomping × Cursor) :=
  match cursor.next? with
  | some '+' => some (.keep, cursor.advance 1)
  | some '-' => some (.strip, cursor.advance 1)
  | _ => none

/-- Read an indentation mark, a digit other than zero. -/
def readIncrement (cursor : Cursor) : Option (Option Nat × Cursor) :=
  match cursor.next?.bind digitValue? with
  | some digit =>
    if 9 < digit then some (none, cursor)
    else if digit = 0 then none
    else some (some digit, cursor.advance 1)
  | none => some (none, cursor)

/-- Read the marks of a block, in either order. -/
def readBlockMarks (cursor : Cursor) :
    Option (Chomping × Option Nat × Cursor) := do
  match readChomping cursor with
  | some (chomping, after) =>
    let (increment, beyond) ← readIncrement after
    return (chomping, increment, beyond)
  | none =>
    let (increment, after) ← readIncrement cursor
    match increment, readChomping after with
    | some _, some (chomping, beyond) => return (chomping, increment, beyond)
    | _, _ => return (.clip, increment, after)

/-- Pass over spaces, a comment and the line break after them. -/
def skipLineEnd (cursor : Cursor) : Option Cursor :=
  let spaced := cursor.skipWhile isGap
  let commented := if spaced.isAt '#' then spaced.takeLine.2 else spaced
  if commented.rest.isEmpty || commented.next?.any isBreak then
    some commented.takeBreak.2
  else none

/--
Pass over empty lines and indentation.  If the indentation is not known, it is
the deepest column that an empty line reaches.  The answer holds the breaks
passed over and that column.
-/
def readEmptyLines (indent : Option Nat) :
    Nat → (breaks : List Char) → (deepest : Nat) → Cursor →
      Option (List Char × Nat × Cursor)
  | 0, breaks, deepest, cursor => some (breaks, deepest, cursor)
  | rounds + 1, breaks, deepest, cursor =>
    let spaces := cursor.rest.takeWhile (fun character => character == ' ')
    let count := match indent with
      | some column => min spaces.length (column - cursor.column)
      | none => spaces.length
    let indented := cursor.advance count
    let deepest := max deepest indented.column
    let shallow := match indent with
      | some column => decide (indented.column < column)
      | none => true
    if shallow && indented.isAt '\t' then none
    else if indented.next?.any isBreak then
      let (lineBreak, after) := indented.takeBreak
      readEmptyLines indent rounds (breaks ++ lineBreak) deepest after
    else some (breaks, deepest, indented)

/-- The lines of a block read so far, and the breaks after the last one. -/
structure BlockLines where
  text : List Char
  leading : List Char
  trailing : List Char
  startsBlank : Bool
  deriving DecidableEq, Repr

/--
Add a line to a block.  In a folded block, the break between two lines that
both start with a word is folded.
-/
def BlockLines.add (lines : BlockLines) (folded : Bool) (line : List Char) :
    BlockLines :=
  let blank := line.head?.any isGap
  let joined :=
    if folded && lines.leading.head? == some '\n' && !lines.startsBlank &&
        !blank then
      if lines.trailing.isEmpty then [' '] else lines.trailing
    else lines.leading ++ lines.trailing
  ⟨lines.text ++ joined ++ line, [], [], blank⟩

/-- Read the lines of a block that are indented to a column. -/
def readBlockLines (folded : Bool) (indent : Nat) :
    Nat → BlockLines → Cursor → Option (BlockLines × Cursor)
  | 0, lines, cursor => some (lines, cursor)
  | rounds + 1, lines, cursor => do
    if cursor.column ≠ indent || cursor.rest.isEmpty then return (lines, cursor)
    let (line, lineEnd) := cursor.takeLine
    let (lineBreak, after) := lineEnd.takeBreak
    let (breaks, _, beyond) ←
      readEmptyLines (some indent) (after.rest.length + 1) [] 0 after
    readBlockLines folded indent rounds
      { lines.add folded line with leading := lineBreak, trailing := breaks }
      beyond

/-- The text of a block, with the breaks at its end that belong to it. -/
def BlockLines.chomp (lines : BlockLines) : Chomping → List Char
  | .strip => lines.text
  | .clip => lines.text ++ lines.leading
  | .keep => lines.text ++ lines.leading ++ lines.trailing

/-- Read a block scalar from its mark; `parent` is the column it belongs to. -/
def readBlock (folded : Bool) (parent : Int) (cursor : Cursor) :
    Option (List Char × Cursor) := do
  let (chomping, increment, marked) ← readBlockMarks (cursor.advance 1)
  let body ← skipLineEnd marked
  let given := increment.map (fun columns => parent.toNat + columns)
  let (breaks, deepest, first) ←
    readEmptyLines given (body.rest.length + 1) [] 0 body
  let indent := given.getD (max deepest (max (parent + 1).toNat 1))
  let (lines, after) ←
    readBlockLines folded indent (first.rest.length + 1)
      ⟨[], [], breaks, false⟩ first
  return (lines.chomp chomping, after)

end FlowWitness.Yaml
