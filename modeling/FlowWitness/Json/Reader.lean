import FlowWitness.Json.Basic

/-!
# Reading JSON

A reader for JSON texts.  Every part of a value takes at least one character,
so the length of the text bounds how deep reading goes.
-/

namespace FlowWitness.Json

open FlowWitness.Text

/-! ## Parts of values -/

/-- The characters between tokens. -/
def isSpace (character : Char) : Bool :=
  character == ' ' || character == '\n' || character == '\t' ||
    character == '\r'

/-- Skip the space before a token. -/
def skipSpace (characters : List Char) : List Char :=
  characters.dropWhile isSpace

/-- Is this a decimal digit? -/
def isDecimal (character : Char) : Bool :=
  48 ≤ character.toNat && character.toNat ≤ 57

/-- At least one decimal digit, and the rest. -/
def digits? (characters : List Char) : Option (List Char × List Char) :=
  match characters.takeWhile isDecimal with
  | [] => none
  | digits => some (digits, characters.dropWhile isDecimal)

/-- The whole part of a number: zero, or digits that do not start with it. -/
def wholePart? : List Char → Option (List Char × List Char)
  | '0' :: rest =>
    match rest with
    | next :: _ => if isDecimal next then none else some (['0'], rest)
    | [] => some (['0'], [])
  | other => digits? other

/-- The fraction of a number, if it has one. -/
def fractionPart? : List Char → Option (List Char × List Char)
  | '.' :: rest => (digits? rest).map (fun found => ('.' :: found.1, found.2))
  | other => some ([], other)

/-- The exponent of a number, if it has one. -/
def exponentPart? : List Char → Option (List Char × List Char)
  | mark :: rest =>
    if mark == 'e' || mark == 'E' then
      let (sign, digits) :=
        match rest with
        | '+' :: after => (['+'], after)
        | '-' :: after => (['-'], after)
        | other => ([], other)
      (digits? digits).map (fun found => (mark :: sign ++ found.1, found.2))
    else some ([], mark :: rest)
  | [] => some ([], [])

/-- A number, as it is spelled. -/
def readNumber (characters : List Char) : Option (List Char × List Char) := do
  let (sign, unsigned) :=
    match characters with
    | '-' :: rest => (['-'], rest)
    | other => ([], other)
  let (whole, afterWhole) ← wholePart? unsigned
  let (fraction, afterFraction) ← fractionPart? afterWhole
  let (exponent, rest) ← exponentPart? afterFraction
  return (sign ++ whole ++ fraction ++ exponent, rest)

/-- Four hexadecimal digits. -/
def readUnit : List Char → Option (Nat × List Char)
  | first :: second :: third :: fourth :: rest => do
    let value ← readDigits 16 [first, second, third, fourth]
    return (value, rest)
  | _ => none

/--
The character of an escape after `\u`, which may take a second escape.  There
is none if the escape is half of a pair and the other half does not follow.
-/
def readEscapedUnit (characters : List Char) :
    Option (Option Char × List Char) := do
  let (first, rest) ← readUnit characters
  if 0xD800 ≤ first ∧ first < 0xDC00 then
    match rest with
    | '\\' :: 'u' :: after =>
      let (second, final) ← readUnit after
      if 0xDC00 ≤ second ∧ second < 0xE000 then
        return (some (Char.ofNat
          (0x10000 + (first - 0xD800) * 0x400 + (second - 0xDC00))), final)
      else return (none, rest)
    | _ => return (none, rest)
  else if 0xDC00 ≤ first ∧ first < 0xE000 then return (none, rest)
  else return (some (Char.ofNat first), rest)

/-- The character of an escape, if it has one, and the rest. -/
def readEscape : List Char → Option (Option Char × List Char)
  | '"' :: rest => some (some '"', rest)
  | '\\' :: rest => some (some '\\', rest)
  | '/' :: rest => some (some '/', rest)
  | 'b' :: rest => some (some (Char.ofNat 8), rest)
  | 'f' :: rest => some (some (Char.ofNat 12), rest)
  | 'n' :: rest => some (some '\n', rest)
  | 'r' :: rest => some (some '\r', rest)
  | 't' :: rest => some (some '\t', rest)
  | 'u' :: rest => readEscapedUnit rest
  | _ => none

/-- The characters of a string up to its closing quote, and the rest. -/
def readStringRest : Nat → List Char → Option (List (Option Char) × List Char)
  | 0, _ => none
  | _ + 1, [] => none
  | _ + 1, '"' :: rest => some ([], rest)
  | steps + 1, '\\' :: rest => do
    let (character, after) ← readEscape rest
    let (more, final) ← readStringRest steps after
    return (character :: more, final)
  | steps + 1, character :: rest =>
    if character.toNat < 32 then none
    else do
      let (more, final) ← readStringRest steps rest
      return (some character :: more, final)

/-- A string after its opening quote; it has no text if a pair is broken. -/
def readString (characters : List Char) : Option (Option String × List Char) :=
  (readStringRest (characters.length + 1) characters).map (fun found =>
    ((found.1.mapM id).map String.ofList, found.2))

/-- The rest after a fixed word. -/
def readWord (word characters : List Char) : Option (List Char) :=
  if word.isPrefixOf characters then some (characters.drop word.length)
  else none

/-! ## Values -/

mutual

/-- A value and the rest; `depth` bounds how deep it may go. -/
def readValueFrom : (depth : Nat) → List Char → Option (JsonValue × List Char)
  | 0, _ => none
  | depth + 1, characters =>
    match skipSpace characters with
    | '"' :: rest => do
      let (text, rest) ← readString rest
      return (text.elim .unpaired .string, rest)
    | '[' :: rest =>
      match skipSpace rest with
      | ']' :: rest => some (.array [], rest)
      | items => do
        let (items, rest) ← readItems depth items
        return (.array items, rest)
    | '{' :: rest =>
      match skipSpace rest with
      | '}' :: rest => some (.object [], rest)
      | members => do
        let (members, rest) ← readMembers depth members
        return (.object members, rest)
    | other =>
      match readWord "null".toList other with
      | some rest => some (.null, rest)
      | none =>
        match readWord "true".toList other with
        | some rest => some (.bool true, rest)
        | none =>
          match readWord "false".toList other with
          | some rest => some (.bool false, rest)
          | none => (readNumber other).map (fun found =>
              (.number found.1, found.2))

/-- Items with commas between them, up to the closing bracket. -/
def readItems : (depth : Nat) → List Char → Option (List JsonValue × List Char)
  | 0, _ => none
  | depth + 1, characters => do
    let (item, rest) ← readValueFrom depth characters
    match skipSpace rest with
    | ',' :: rest =>
      let (items, rest) ← readItems depth rest
      return (item :: items, rest)
    | ']' :: rest => return ([item], rest)
    | _ => none

/-- Members with commas between them, up to the closing brace. -/
def readMembers :
    (depth : Nat) → List Char → Option (List (String × JsonValue) × List Char)
  | 0, _ => none
  | depth + 1, characters =>
    match skipSpace characters with
    | '"' :: rest => do
      let (spelled, rest) ← readString rest
      let name ← spelled
      match skipSpace rest with
      | ':' :: rest =>
        let (value, rest) ← readValueFrom depth rest
        match skipSpace rest with
        | ',' :: rest =>
          let (members, rest) ← readMembers depth rest
          return ((name, value) :: members, rest)
        | '}' :: rest => return ([(name, value)], rest)
        | _ => none
      | _ => none
    | _ => none

end

/-- Read a text as exactly one value. -/
def read (text : String) : Option JsonValue := do
  let characters := text.toList
  let (value, rest) ← readValueFrom (2 * characters.length + 2) characters
  match skipSpace rest with
  | [] => return value
  | _ => none

end FlowWitness.Json
