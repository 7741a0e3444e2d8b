/-!
# Decoding text

Output of a process arrives as bytes.  A glyph is a character of it, or a
place where the bytes do not spell one in UTF-8.  Bytes are decoded in one
pass; a sequence that is cut short by another byte is one such place, and the
byte after it is read afresh.
-/

namespace FlowWitness.Text

/-- A character, or a place that holds none. -/
abbrev Glyph := Option Char

/-- The character with a code point, if there is one. -/
def characterOf? (code : Nat) : Glyph :=
  if code < 0xD800 ∨ (0xDFFF < code ∧ code < 0x110000) then
    some (Char.ofNat code)
  else none

/--
Where decoding stands: before a character, or inside one that still needs
`missing` bytes, has the bits `code` so far and must not lie below `least`.
-/
inductive DecodeState where
  | ready
  | within (missing code least : Nat)
  deriving DecidableEq, Repr

namespace DecodeState

/-- Read the first byte of a character. -/
def enter (byte : Nat) : List Glyph × DecodeState :=
  if byte < 0x80 then ([some (Char.ofNat byte)], ready)
  else if 0xC2 ≤ byte ∧ byte < 0xE0 then ([], within 1 (byte - 0xC0) 0x80)
  else if 0xE0 ≤ byte ∧ byte < 0xF0 then ([], within 2 (byte - 0xE0) 0x800)
  else if 0xF0 ≤ byte ∧ byte < 0xF5 then ([], within 3 (byte - 0xF0) 0x10000)
  else ([none], ready)

/-- Read one byte. -/
def advance (byte : Nat) : DecodeState → List Glyph × DecodeState
  | ready => enter byte
  | within missing code least =>
    if 0x80 ≤ byte ∧ byte < 0xC0 then
      let extended := code * 64 + (byte - 0x80)
      if missing ≤ 1 then
        ([if extended < least then none else characterOf? extended], ready)
      else ([], within (missing - 1) extended least)
    else
      let (glyphs, next) := enter byte
      (none :: glyphs, next)

/-- What the end of the bytes leaves behind. -/
def finish : DecodeState → List Glyph
  | ready => []
  | within _ _ _ => [none]

end DecodeState

/-- Decode bytes from a state on. -/
def decodeFrom (state : DecodeState) : List Nat → List Glyph
  | [] => state.finish
  | byte :: rest =>
    let (glyphs, next) := state.advance byte
    glyphs ++ decodeFrom next rest

/-- The glyphs that bytes spell. -/
def decodeBytes (bytes : List Nat) : List Glyph :=
  decodeFrom .ready bytes

/-- The glyphs of a text. -/
def glyphs (text : String) : List Glyph :=
  text.toList.map some

/-- The characters of glyphs, if none is missing. -/
def characters? (glyphs : List Glyph) : Option (List Char) :=
  glyphs.mapM id

end FlowWitness.Text
