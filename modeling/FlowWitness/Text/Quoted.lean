import FlowWitness.Text.Numeral
import FlowWitness.Text.Printable

/-!
# Quoted text

A text between double quotes in which every character can be seen: quotes and
backslashes are escaped, four control characters have short names, and all
other characters that do not print are given by their code in braces.
-/

namespace FlowWitness.Text

/-- One character of a quoted text. -/
def quoteCharacter (character : Char) : String :=
  match character with
  | '"' => "\\\""
  | '\\' => "\\\\"
  | '\t' => "\\t"
  | '\n' => "\\n"
  | '\r' => "\\r"
  | other =>
    if other.toNat = 0 then "\\0"
    else if isPrintable other then String.ofList [other]
    else "\\u\x7b" ++ hexadecimal other.toNat ++ "\x7d"

/-- The text in quotes. -/
def quote (text : String) : String :=
  "\"" ++ String.join (text.toList.map quoteCharacter) ++ "\""

end FlowWitness.Text
