import FlowWitness.Text.Numeral

/-!
# JSON

JSON trees and their compact text.  A number is kept as it is spelled, so that
no precision is lost and the reader of a field decides what it accepts.  A
string may spell half of a surrogate pair, which no text holds; such a string
can only be passed over.  An object keeps its members in order, repeated ones
included.
-/

namespace FlowWitness.Json

open FlowWitness.Text

/-- A JSON value. -/
inductive JsonValue where
  | null
  | bool (value : Bool)
  | number (spelling : List Char)
  | string (text : String)
  | unpaired
  | array (items : List JsonValue)
  | object (members : List (String × JsonValue))
  deriving Repr

namespace JsonValue

/-- A whole number. -/
def integer (value : Int) : JsonValue := number (toString value).toList

/-- A count. -/
def natural (value : Nat) : JsonValue := number (toString value).toList

/-- Two hexadecimal digits. -/
def twoDigits (value : Nat) : String :=
  if value < 16 then "0" ++ hexadecimal value else hexadecimal value

/-- One character inside a string. -/
def escape (character : Char) : String :=
  match character with
  | '"' => "\\\""
  | '\\' => "\\\\"
  | '\n' => "\\n"
  | '\r' => "\\r"
  | '\t' => "\\t"
  | other =>
    let code := other.toNat
    if code = 8 then "\\b"
    else if code = 12 then "\\f"
    else if code < 32 then "\\u00" ++ twoDigits code
    else String.ofList [other]

/-- A string between quotes. -/
def quoted (text : String) : String :=
  "\"" ++ String.join (text.toList.map escape) ++ "\""

mutual

/-- The compact text of a value. -/
def text : JsonValue → String
  | null => "null"
  | bool true => "true"
  | bool false => "false"
  | number spelling => String.ofList spelling
  | string content => quoted content
  | unpaired => "\"\\ud800\""
  | array items => "[" ++ itemsText items ++ "]"
  | object members => "\x7b" ++ membersText members ++ "\x7d"

/-- The texts of items, with commas between them. -/
def itemsText : List JsonValue → String
  | [] => ""
  | [item] => item.text
  | item :: next :: rest => item.text ++ "," ++ itemsText (next :: rest)

/-- The texts of members, with commas between them. -/
def membersText : List (String × JsonValue) → String
  | [] => ""
  | [(name, value)] => quoted name ++ ":" ++ value.text
  | (name, value) :: next :: rest =>
    quoted name ++ ":" ++ value.text ++ "," ++ membersText (next :: rest)

end

end JsonValue

end FlowWitness.Json
