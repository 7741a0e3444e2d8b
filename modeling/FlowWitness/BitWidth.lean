/-!
# Bit widths

How many words there are of a number of bits.
-/

namespace FlowWitness

/-- The number of words of a width. -/
def wordCount (bits : Nat) : Nat := Nat.pow 2 bits

end FlowWitness
