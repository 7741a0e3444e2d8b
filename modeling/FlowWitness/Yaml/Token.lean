import FlowWitness.Text.Utf8
import FlowWitness.Yaml.Scalar

/-!
# YAML tokens

The marks, names and scalars that a document is made of.  The tokens that open
and close blocks are not written in the document; they stand for changes of
indentation.
-/

namespace FlowWitness.Yaml

open FlowWitness.Text

/-- A token of a document. -/
inductive Token where
  | version (major minor : Nat)
  | tagHandle (handle meaning : String)
  | documentStart
  | documentEnd
  | sequenceStart
  | mappingStart
  | blockEnd
  | flowSequenceStart
  | flowSequenceEnd
  | flowMappingStart
  | flowMappingEnd
  | entry
  | flowEntry
  | key
  | value
  | reference (name : String)
  | anchor (name : String)
  | tag (handle suffix : String)
  | scalar (text : String) (style : ScalarStyle)
  deriving DecidableEq, Repr

/-! ## Names -/

/-- Read the name of an anchor, after its mark. -/
def readAnchorName (cursor : Cursor) : Option (String × Cursor) :=
  let (name, after) := cursor.takeWhile isNameCharacter
  if name.isEmpty then none
  else if endsWord after.next? ||
      after.isAtAny ['?', ':', ',', ']', '}', '%', '@', '\x60'] then
    some (String.ofList name, after)
  else none

/-- The characters of a tag; a few more are allowed where nothing can follow. -/
def isTagCharacter (delimited : Bool) (character : Char) : Bool :=
  isNameCharacter character || ";/?:@&=+$.%!~*'()".toList.contains character ||
    (delimited && [',', '[', ']'].contains character)

/-- The bytes of a tag; a percent sign and two digits spell any byte. -/
def tagBytes : List Char → Option (List Nat)
  | [] => some []
  | '%' :: first :: second :: rest => do
    return (← readDigits 16 [first, second]) :: (← tagBytes rest)
  | character :: rest => do
    if character == '%' then none
    return character.toNat :: (← tagBytes rest)

/-- The text of a tag. -/
def tagText (spelled : List Char) : Option String := do
  return String.ofList (← characters? (decodeBytes (← tagBytes spelled)))

/-- Read a nonempty run of the characters of a tag. -/
def readTagText (delimited : Bool) (cursor : Cursor) :
    Option (String × Cursor) := do
  let (spelled, after) := cursor.takeWhile (isTagCharacter delimited)
  if spelled.isEmpty then none
  return (← tagText spelled, after)

/-- Read the handle of a tag: one mark, or a name between two. -/
def readTagHandle (cursor : Cursor) : Option (String × Cursor) :=
  if cursor.isAt '!' then
    let (name, after) := (cursor.advance 1).takeWhile isNameCharacter
    if after.isAt '!' then
      some (String.ofList ('!' :: name ++ ['!']), after.advance 1)
    else some (String.ofList ('!' :: name), after)
  else none

/-- Read a tag between angle brackets. -/
def readVerbatimTag (cursor : Cursor) : Option (Token × Cursor) := do
  let (suffix, after) ← readTagText true (cursor.advance 2)
  if after.isAt '>' then return (.tag "" suffix, after.advance 1) else none

/-- Read a tag with a handle of two marks, or with a single mark. -/
def readShortTag (cursor : Cursor) : Option (Token × Cursor) := do
  let (handle, after) ← readTagHandle cursor
  if 1 < handle.length && handle.endsWith "!" then
    let (suffix, beyond) ← readTagText false after
    return (.tag handle suffix, beyond)
  let (spelled, beyond) := (cursor.advance 1).takeWhile (isTagCharacter false)
  let suffix ← tagText spelled
  return (if suffix.isEmpty then .tag "" "!" else .tag "!" suffix, beyond)

/-- Read a tag, which ends at a gap or, between brackets, at a comma. -/
def readTag (inFlow : Bool) (cursor : Cursor) : Option (Token × Cursor) := do
  let (token, after) ←
    if cursor.second? == some '<' then readVerbatimTag cursor
    else readShortTag cursor
  if endsWord after.next? || (inFlow && after.isAt ',') then
    return (token, after)
  else none

/-! ## Directives -/

/-- Read a number of at most nine digits. -/
def readVersionNumber (cursor : Cursor) : Option (Nat × Cursor) := do
  let (digits, after) := cursor.takeWhile Char.isDigit
  if 9 < digits.length then none
  return (← readDigits 10 digits, after)

/-- Read the two numbers of a version. -/
def readVersion (cursor : Cursor) : Option (Token × Cursor) := do
  let (major, after) ← readVersionNumber (cursor.skipWhile isGap)
  if after.isAt '.' then
    let (minor, beyond) ← readVersionNumber (after.advance 1)
    return (.version major minor, beyond)
  else none

/-- Read what a tag handle is to stand for. -/
def readHandleMeaning (cursor : Cursor) : Option (Token × Cursor) := do
  let (handle, after) ← readTagHandle (cursor.skipWhile isGap)
  if handle != "!" && !(1 < handle.length && handle.endsWith "!") then none
  if !after.next?.any isGap then none
  let (meaning, beyond) ← readTagText true (after.skipWhile isGap)
  if endsWord beyond.next? then return (.tagHandle handle meaning, beyond)
  else none

/-- Read a directive and the rest of its line. -/
def readDirective (cursor : Cursor) : Option (Token × Cursor) := do
  let (name, after) := (cursor.advance 1).takeWhile isNameCharacter
  if !endsWord after.next? then none
  let (token, beyond) ←
    match String.ofList name with
    | "YAML" => readVersion after
    | "TAG" => readHandleMeaning after
    | _ => none
  return (token, ← skipLineEnd beyond)

end FlowWitness.Yaml
