import FlowWitness.Yaml.Token

/-!
# From characters to YAML tokens

A document is read from left to right.  Outside brackets, indentation opens
and closes blocks.  A key is recognized only by the colon after it, so the
place of whatever could be a key is remembered; when the colon comes, the
token for the key, and if need be the token that opens its block, are put in
before it.  Something that could be a key stays one on its own line, for 1024
characters.
-/

namespace FlowWitness.Yaml

/-- Where a key could begin, and whether one has to. -/
structure KeyPlace where
  place : Nat
  required : Bool
  index : Nat
  line : Nat
  column : Nat
  deriving DecidableEq, Repr

/--
Reading in progress: the tokens so far, the columns of the open blocks with
the innermost first, the places of possible keys, one for each open bracket
and one for the outside, and whether a key may begin here.
-/
structure Layout where
  cursor : Cursor
  tokens : List Token
  blocks : List Nat
  keys : List (Option KeyPlace)
  keyAllowed : Bool
  deriving DecidableEq, Repr

namespace Layout

/-- The beginning of a document. -/
def start (characters : List Char) : Layout :=
  ⟨.start characters, [], [], [none], true⟩

/-- Are brackets open? -/
def inFlow (layout : Layout) : Bool := 1 < layout.keys.length

/-- The column of the innermost block, or minus one outside all blocks. -/
def indent (layout : Layout) : Int :=
  match layout.blocks with
  | [] => -1
  | column :: _ => column

/-- Add a token at the end. -/
def emit (layout : Layout) (token : Token) : Layout :=
  { layout with tokens := layout.tokens ++ [token] }

/-- Put a token in at a place. -/
def emitAt (layout : Layout) (place : Nat) (token : Token) : Layout :=
  { layout with
    tokens := layout.tokens.take place ++ token :: layout.tokens.drop place }

/-- Move on, with or without a key being allowed there. -/
def moveTo (layout : Layout) (cursor : Cursor) (keyAllowed : Bool) : Layout :=
  { layout with cursor := cursor, keyAllowed := keyAllowed }

/-! ## Blocks -/

/-- Open a block at a column, unless it is open or brackets are. -/
def openBlock (layout : Layout) (column place : Nat) (token : Token) : Layout :=
  if layout.inFlow || (column : Int) ≤ layout.indent then layout
  else { layout.emitAt place token with blocks := column :: layout.blocks }

/-- Open a block here. -/
def openBlockHere (layout : Layout) (token : Token) : Layout :=
  layout.openBlock layout.cursor.column layout.tokens.length token

/-- Close the blocks that are deeper than a column. -/
def closeBlocks (layout : Layout) (column : Int) : Layout :=
  if layout.inFlow then layout
  else
    let deeper := layout.blocks.takeWhile (fun block : Nat =>
      decide (column < (block : Int)))
    { layout with
      tokens := layout.tokens ++ deeper.map (fun _ => .blockEnd)
      blocks := layout.blocks.drop deeper.length }

/-! ## Possible keys -/

/-- Forget the possible key here; a key that has to be one may not be lost. -/
def dropKey (layout : Layout) : Option Layout :=
  match layout.keys with
  | some key :: outer =>
    if key.required then none else some { layout with keys := none :: outer }
  | _ => some layout

/-- Remember that a key could begin here. -/
def noteKey (layout : Layout) : Option Layout :=
  if layout.keyAllowed then
    let cursor := layout.cursor
    let key : KeyPlace :=
      ⟨layout.tokens.length,
        !layout.inFlow && layout.indent == (cursor.column : Int),
        cursor.index, cursor.line, cursor.column⟩
    (layout.dropKey).map (fun dropped =>
      { dropped with keys := some key :: dropped.keys.drop 1 })
  else some layout

/-- Is it too late for a colon after this possible key? -/
def isStale (cursor : Cursor) (key : KeyPlace) : Bool :=
  key.line < cursor.line || key.index + 1024 < cursor.index

/-- Forget the possible keys for which it is too late. -/
def dropStaleKeys (layout : Layout) : Option Layout :=
  let lost := layout.keys.any (fun key =>
    key.any (fun place => place.required && isStale layout.cursor place))
  if lost then none
  else some { layout with
    keys := layout.keys.map (fun key =>
      key.filter (fun place => !isStale layout.cursor place)) }

/-! ## Single tokens -/

/--
Pass over spaces, comments and line breaks.  Outside brackets a key may begin
on a new line.
-/
def skipToToken : Nat → Layout → Layout
  | 0, layout => layout
  | rounds + 1, layout =>
    let spaced := layout.cursor.skipWhile (fun character =>
      character == ' ' ||
        (character == '\t' && (layout.inFlow || !layout.keyAllowed)))
    let cursor := if spaced.isAt '#' then spaced.takeLine.2 else spaced
    if cursor.next?.any isBreak then
      skipToToken rounds
        (layout.moveTo cursor.takeBreak.2 (layout.keyAllowed || !layout.inFlow))
    else layout.moveTo cursor layout.keyAllowed

/-- A token that belongs to no block. -/
def takeOutside (layout : Layout) (token : Token) (after : Cursor) :
    Option Layout := do
  let closed ← (layout.closeBlocks (-1)).dropKey
  return (closed.emit token).moveTo after false

/-- An opening bracket. -/
def takeOpening (layout : Layout) (token : Token) : Option Layout := do
  let noted ← layout.noteKey
  return { (noted.emit token).moveTo (layout.cursor.advance 1) true with
    keys := none :: noted.keys }

/-- A closing bracket. -/
def takeClosing (layout : Layout) (token : Token) : Option Layout := do
  let dropped ← layout.dropKey
  let keys := if dropped.inFlow then dropped.keys.drop 1 else dropped.keys
  return { (dropped.emit token).moveTo (layout.cursor.advance 1) false with
    keys := keys }

/-- A comma between brackets. -/
def takeComma (layout : Layout) : Option Layout := do
  let dropped ← layout.dropKey
  return (dropped.emit .flowEntry).moveTo (layout.cursor.advance 1) true

/-- The mark of an entry of a sequence. -/
def takeEntry (layout : Layout) : Option Layout := do
  if !layout.inFlow && !layout.keyAllowed then none
  let dropped ← (layout.openBlockHere .sequenceStart).dropKey
  return (dropped.emit .entry).moveTo (layout.cursor.advance 1) true

/-- The mark of a key. -/
def takeKey (layout : Layout) : Option Layout := do
  if !layout.inFlow && !layout.keyAllowed then none
  let dropped ← (layout.openBlockHere .mappingStart).dropKey
  return (dropped.emit .key).moveTo (layout.cursor.advance 1) !layout.inFlow

/-- The mark of a value, after a key that was remembered or marked. -/
def takeValue (layout : Layout) : Option Layout := do
  let after := layout.cursor.advance 1
  match layout.keys with
  | some key :: outer =>
    let keyed := { layout.emitAt key.place .key with keys := none :: outer }
    let opened := keyed.openBlock key.column key.place .mappingStart
    return (opened.emit .value).moveTo after false
  | _ =>
    if !layout.inFlow && !layout.keyAllowed then none
    let opened := layout.openBlockHere .mappingStart
    return (opened.emit .value).moveTo after !layout.inFlow

/-- A token that could be a key, or the beginning of one. -/
def takeNamed (layout : Layout) (token : Token) (after : Cursor) :
    Option Layout := do
  let noted ← layout.noteKey
  return (noted.emit token).moveTo after false

/-- A block scalar, which cannot be a key. -/
def takeBlock (layout : Layout) (style : ScalarStyle) : Option Layout := do
  let dropped ← layout.dropKey
  let (text, after) ←
    readBlock (style == .folded) layout.indent layout.cursor
  return (dropped.emit (.scalar (String.ofList text) style)).moveTo after true

/-- A quoted scalar. -/
def takeQuoted (layout : Layout) (quote : Char) (style : ScalarStyle) :
    Option Layout := do
  let (text, after) ← readQuoted quote layout.cursor
  layout.takeNamed (.scalar (String.ofList text) style) after

/-- A plain scalar; a key may begin after it only on another line. -/
def takePlain (layout : Layout) : Option Layout := do
  let noted ← layout.noteKey
  let (text, broken, after) ←
    readPlain layout.indent layout.inFlow layout.cursor
  return (noted.emit (.scalar (String.ofList text) .plain)).moveTo after broken

/-- An anchor, or a reference to one. -/
def takeAnchor (layout : Layout) (token : String → Token) : Option Layout := do
  let (name, after) ← readAnchorName (layout.cursor.advance 1)
  layout.takeNamed (token name) after

/-- The characters with which no plain scalar begins. -/
def marks : List Char :=
  ['-', '?', ':', ',', '[', ']', '{', '}', '#', '&', '*', '!', '|', '>', '\'',
    '"', '%', '@', '\x60']

/--
Can a plain scalar begin here?  Some marks can begin one if no gap follows
them.
-/
def startsPlain (layout : Layout) (first : Char) (second : Option Char) : Bool :=
  (!endsWord (some first) && !marks.contains first) ||
    (first == '-' && !second.any isGap) ||
    (!layout.inFlow && (first == '?' || first == ':') && !endsWord second)

/-- Take the token at the cursor, which begins with the given character. -/
def takeToken (layout : Layout) (first : Char) : Option Layout :=
  let cursor := layout.cursor
  let second := cursor.second?
  let apart := endsWord second
  if first == '%' && cursor.column == 0 then do
    let (token, after) ← readDirective cursor
    layout.takeOutside token after
  else if cursor.isAtMark ['-', '-', '-'] then
    layout.takeOutside .documentStart (cursor.advance 3)
  else if cursor.isAtMark ['.', '.', '.'] then
    layout.takeOutside .documentEnd (cursor.advance 3)
  else if first == '[' then layout.takeOpening .flowSequenceStart
  else if first == '{' then layout.takeOpening .flowMappingStart
  else if first == ']' then layout.takeClosing .flowSequenceEnd
  else if first == '}' then layout.takeClosing .flowMappingEnd
  else if first == ',' then layout.takeComma
  else if first == '-' && apart then layout.takeEntry
  else if first == '?' && (layout.inFlow || apart) then layout.takeKey
  else if first == ':' && (layout.inFlow || apart) then layout.takeValue
  else if first == '*' then layout.takeAnchor .reference
  else if first == '&' then layout.takeAnchor .anchor
  else if first == '!' then do
    let (token, after) ← readTag layout.inFlow cursor
    layout.takeNamed token after
  else if first == '|' && !layout.inFlow then layout.takeBlock .literal
  else if first == '>' && !layout.inFlow then layout.takeBlock .folded
  else if first == '\'' then layout.takeQuoted '\'' .singleQuoted
  else if first == '"' then layout.takeQuoted '"' .doubleQuoted
  else if layout.startsPlain first second then layout.takePlain
  else none

/-- The end of the text closes all blocks. -/
def finish (layout : Layout) : Option (List Token) :=
  (layout.closeBlocks (-1)).dropKey.map Layout.tokens

/-- Take tokens up to the end of the text. -/
def run : Nat → Layout → Option (List Token)
  | 0, _ => none
  | rounds + 1, layout => do
    let rest := layout.cursor.rest
    let reached ← (skipToToken (rest.length + 1) layout).dropStaleKeys
    let closed := reached.closeBlocks reached.cursor.column
    match closed.cursor.next? with
    | none => closed.finish
    | some first => run rounds (← closed.takeToken first)

end Layout

/-- Leave out a byte order mark at the beginning. -/
def withoutMark : List Char → List Char
  | character :: rest =>
    if character.toNat == 0xFEFF then rest else character :: rest
  | [] => []

/-- The tokens of a text. -/
def tokens (text : String) : Option (List Token) :=
  let characters := withoutMark text.toList
  if characters.all isAllowed then
    Layout.run (characters.length + 1) (.start characters)
  else none

end FlowWitness.Yaml
