/-!
# Blank characters

Responses and settings are trimmed and split at blanks.  A blank is a
character with the Unicode property `White_Space`; the property has held the
same twenty-five characters through many versions of the standard, so it is
written here as a test on code points.
-/

namespace FlowWitness.Text

/--
The characters with the Unicode property `White_Space`: the tabulation and
line-break controls, the space, and the spaces of fixed width.
-/
def isBlank (character : Char) : Bool :=
  let code := character.toNat
  (9 ≤ code && code ≤ 13) || code == 0x20 || code == 0x85 || code == 0xA0 ||
    code == 0x1680 || (0x2000 ≤ code && code ≤ 0x200A) || code == 0x2028 ||
    code == 0x2029 || code == 0x202F || code == 0x205F || code == 0x3000

/--
Drop the blanks at both ends.
-/
def trimBlanks (characters : List Char) : List Char :=
  ((characters.dropWhile isBlank).reverse.dropWhile isBlank).reverse

/--
The text without the blanks at its ends.
-/
def trim (text : String) : String :=
  String.ofList (trimBlanks text.toList)

end FlowWitness.Text
