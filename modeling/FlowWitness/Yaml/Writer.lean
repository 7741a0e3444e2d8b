import FlowWitness.Yaml.Cursor
import FlowWitness.Yaml.Resolution

/-!
# Writing YAML scalars

A text is written plainly if it then reads back as itself.  A text that looks
like something else, or whose characters have a meaning where they stand, is
put between single quotes; a text with line feeds becomes a literal block.
Where neither can hold the text, it is put between double quotes, and what
cannot be printed is escaped.
-/

namespace FlowWitness.Yaml

/-! ## Obstacles -/

/-- Is the character printed as it is, also outside of double quotes? -/
def isPlainlyPrinted (character : Char) : Bool :=
  let code := character.toNat
  code == 0x0A || (0x20 ≤ code && code ≤ 0x7E) ||
    (0xA0 ≤ code && code ≤ 0xD7FF) || (0xE000 ≤ code && code ≤ 0xFFFD && code != 0xFEFF)

/-- Do two neighbours satisfy two tests? -/
def hasNeighbours (first second : Char → Bool) : List Char → Bool
  | left :: right :: rest =>
    (first left && second right) || hasNeighbours first second (right :: rest)
  | _ => false

/-- Does a space stand before the end of a line? -/
def hasSpaceBeforeBreak (text : List Char) : Bool :=
  hasNeighbours (fun character => character == ' ') isBreak text

/-- Does a space stand at the beginning of a line? -/
def hasSpaceAfterBreak (text : List Char) : Bool :=
  hasNeighbours isBreak (fun character => character == ' ') text

/-- Is some character not printed? -/
def hasUnprinted (text : List Char) : Bool :=
  !text.all isPlainlyPrinted

/-- Does the first character have a meaning where it stands? -/
def startsWithMark : List Char → Bool
  | [] => false
  | first :: rest =>
    ['#', ',', '[', ']', '{', '}', '&', '*', '!', '|', '>', '\'', '"', '%', '@',
      '\x60'].contains first ||
      (['?', ':', '-'].contains first && endsWord rest.head?) ||
      ['-', '-', '-'].isPrefixOf (first :: rest) ||
      ['.', '.', '.'].isPrefixOf (first :: rest)

/-- Does a later character have a meaning where it stands? -/
def containsMark (text : List Char) : Bool :=
  hasNeighbours (fun character => character == ':')
      (fun character => endsWord (some character)) text ||
    text.getLast? == some ':' ||
    hasNeighbours (fun character => endsWord (some character))
      (fun character => character == '#') text

/-- Does a space or a line break stand at either end? -/
def hasBlankEnd (text : List Char) : Bool :=
  let blank := fun character => character == ' ' || isBreak character
  text.head?.any blank || text.getLast?.any blank

/-- Can the text stand between single quotes? -/
def fitsSingleQuotes (text : List Char) : Bool :=
  !hasSpaceAfterBreak text && !hasSpaceBeforeBreak text && !hasUnprinted text

/-- Can the text be written without any marks? -/
def fitsPlain (text : List Char) : Bool :=
  fitsSingleQuotes text && !hasBlankEnd text && !text.any isBreak &&
    !startsWithMark text && !containsMark text

/-- Can the text be a literal block? -/
def fitsBlock (text : List Char) : Bool :=
  text.getLast? != some ' ' && !hasSpaceBeforeBreak text && !hasUnprinted text

/-- The style in which a text is written. -/
def styleOf (text : String) : ScalarStyle :=
  let characters := text.toList
  if characters.contains '\n' then
    if fitsBlock characters then .literal else .doubleQuoted
  else if !looksLikeData text && fitsPlain characters then .plain
  else if fitsSingleQuotes characters then .singleQuoted
  else .doubleQuoted

/-! ## Styles -/

/-- The indentation of a line. -/
def indentation (columns : Nat) : List Char := List.replicate columns ' '

/--
Write lines, each after its indentation; `fresh` says whether a line begins
here, which is indented once it has a character.
-/
def indentLines (columns : Nat) : (fresh : Bool) → List Char → List Char
  | _, [] => []
  | fresh, character :: rest =>
    if isBreak character then character :: indentLines columns true rest
    else if fresh then
      indentation columns ++ character :: indentLines columns false rest
    else character :: indentLines columns false rest

/-- Write every single quote twice. -/
def doubleApostrophes (text : List Char) : List Char :=
  text.flatMap (fun character =>
    if character == '\'' then ['\'', '\''] else [character])

/-- A text between single quotes; a quote after a line break is indented too. -/
def singleQuoted (columns : Nat) (text : List Char) : List Char :=
  '\'' :: indentLines columns false (doubleApostrophes text) ++
    (if text.getLast?.any isBreak then indentation columns else []) ++ ['\'']

/-- The mark of a block that starts with a space or a line break. -/
def indentationMark (text : List Char) : List Char :=
  if text.head?.any (fun character => character == ' ' || isBreak character) then
    ['2']
  else []

/-- The mark of a block that does not end with a single line break. -/
def chompingMark (text : List Char) : List Char :=
  match text.reverse with
  | [] => ['-']
  | last :: others =>
    if !isBreak last then ['-']
    else
      match others with
      | [] => ['+']
      | other :: _ => if isBreak other then ['+'] else []

/-- A text as a literal block. -/
def literalBlock (columns : Nat) (text : List Char) : List Char :=
  '|' :: indentationMark text ++ chompingMark text ++
    '\n' :: indentLines columns true text

/-- A number in upper-case hexadecimal digits, filled up with zeros. -/
def hexDigits (count value : Nat) : List Char :=
  let digits := (Nat.toDigits 16 value).map Char.toUpper
  List.replicate (count - digits.length) '0' ++ digits

/-- The escape of a character. -/
def escape (character : Char) : List Char :=
  let code := character.toNat
  if code == 0x00 then ['\\', '0']
  else if code == 0x07 then ['\\', 'a']
  else if code == 0x08 then ['\\', 'b']
  else if code == 0x09 then ['\\', 't']
  else if code == 0x0A then ['\\', 'n']
  else if code == 0x0B then ['\\', 'v']
  else if code == 0x0C then ['\\', 'f']
  else if code == 0x0D then ['\\', 'r']
  else if code == 0x1B then ['\\', 'e']
  else if code == 0x22 then ['\\', '"']
  else if code == 0x5C then ['\\', '\\']
  else if code == 0x85 then ['\\', 'N']
  else if code == 0x2028 then ['\\', 'L']
  else if code == 0x2029 then ['\\', 'P']
  else if code ≤ 0xFF then '\\' :: 'x' :: hexDigits 2 code
  else if code ≤ 0xFFFF then '\\' :: 'u' :: hexDigits 4 code
  else '\\' :: 'U' :: hexDigits 8 code

/-- One character between double quotes. -/
def doubleQuotedCharacter (character : Char) : List Char :=
  if !isPlainlyPrinted character || isBreak character || character == '"' ||
      character == '\\' then
    escape character
  else [character]

/-- A text between double quotes. -/
def doubleQuoted (text : List Char) : List Char :=
  '"' :: text.flatMap doubleQuotedCharacter ++ ['"']

/-- A text as a scalar whose further lines are indented by some columns. -/
def scalarText (columns : Nat) (text : String) : String :=
  let characters := text.toList
  String.ofList (match styleOf text with
    | .plain => characters
    | .singleQuoted => singleQuoted columns characters
    | .doubleQuoted => doubleQuoted characters
    | .literal | .folded => literalBlock columns characters)

/-- End the line, unless a block has ended it. -/
def endLine (line : String) : String :=
  if line.toList.getLast?.any isBreak then line else line ++ "\n"

end FlowWitness.Yaml
