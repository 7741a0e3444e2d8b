import FlowWitness.Smt.StringConstraint

/-!
# String constraints in postfix order

Classes, patterns, strings and terms built from words: a word puts a value on
a stack, or replaces the values on its top by one.  Wherever a pattern is
wanted a class will do, except before a pattern that it is joined with.
-/

namespace FlowWitness.Smt

/-- A value on the stack. -/
inductive StringItem where
  | characters (value : CharClass)
  | pattern (value : Pattern)
  | string (value : StringTerm)
  | term (value : Term)
  deriving DecidableEq, Repr

namespace StringItem

/-- The kind of a value, by name. -/
def kind : StringItem → String
  | characters _ => "class"
  | pattern _ => "pattern"
  | string _ => "string"
  | term _ => "term"

/-- The term of a value. -/
def toTerm : StringItem → Term
  | characters value => value.term
  | pattern value => value.term
  | string value => value.term
  | term value => value

/-- A value as a pattern. -/
def pattern? : StringItem → Option Pattern
  | characters value => some value.toPattern
  | pattern value => some value
  | _ => none

end StringItem

/-- A word: a value, or what is to be done with the values on the top. -/
inductive StringWord where
  | push (item : StringItem)
  | union
  | followedBy
  | star
  | plus
  | optional
  | patternTerm
  | concat
  | length
  | matchesPattern
  | contains
  | startsWith
  | endsWith
  | compareLength (relation : BinaryFunction) (count : Nat)
  | lengthBetween (low high : Nat)
  | stringTerm
  deriving DecidableEq, Repr

namespace StringWord

/-- The words that stand for themselves. -/
def ofName? : String → Option StringWord
  | "digit" => some (push (.characters .digit))
  | "lower" => some (push (.characters .lower))
  | "upper" => some (push (.characters .upper))
  | "alpha" => some (push (.characters .alpha))
  | "alnum" => some (push (.characters .alnum))
  | "any" => some (push (.characters .any))
  | "anything" => some (push (.pattern .anything))
  | "or" => some union
  | "then" => some followedBy
  | "star" => some star
  | "plus" => some plus
  | "optional" => some optional
  | "pattern_term" => some patternTerm
  | "concat" => some concat
  | "len" => some length
  | "matches" => some matchesPattern
  | "contains" => some contains
  | "starts_with" => some startsWith
  | "ends_with" => some endsWith
  | "str_term" | "str_into_term" => some stringTerm
  | _ => none

/-- A pattern made from the value on the top. -/
def onPattern (make : Pattern → StringItem) :
    List StringItem → Option (List StringItem)
  | item :: rest => item.pattern?.map (fun value => make value :: rest)
  | _ => none

/-- A value made from the string on the top. -/
def onString (make : StringTerm → StringItem) :
    List StringItem → Option (List StringItem)
  | .string value :: rest => some (make value :: rest)
  | _ => none

/-- A value made from the two strings on the top. -/
def onStrings (make : StringTerm → StringTerm → StringItem) :
    List StringItem → Option (List StringItem)
  | .string second :: .string first :: rest => some (make first second :: rest)
  | _ => none

/-- Two classes make a class, a pattern with either makes a pattern. -/
def takeUnion : List StringItem → Option (List StringItem)
  | .characters second :: .characters first :: rest =>
    some (.characters (first.union second) :: rest)
  | second :: .pattern first :: rest =>
    second.pattern?.map (fun value => .pattern (first.union value) :: rest)
  | _ => none

/-- One pattern after another. -/
def takeSequence : List StringItem → Option (List StringItem)
  | second :: first :: rest =>
    first.pattern?.bind (fun start => second.pattern?.map (fun ending =>
      .pattern (start.followedBy ending) :: rest))
  | _ => none

/-- A string and the pattern that it is to match. -/
def takeMatch : List StringItem → Option (List StringItem)
  | item :: .string value :: rest =>
    item.pattern?.map (fun pattern =>
      .term (value.matchesPattern pattern) :: rest)
  | _ => none

/-- Take one word. -/
def take (stack : List StringItem) : StringWord → Option (List StringItem)
  | push item => some (item :: stack)
  | union => takeUnion stack
  | followedBy => takeSequence stack
  | star => onPattern (fun value => .pattern value.star) stack
  | plus => onPattern (fun value => .pattern value.plus) stack
  | optional => onPattern (fun value => .pattern value.optional) stack
  | patternTerm => onPattern (fun value => .term value.term) stack
  | concat => onStrings (fun first second => .string (first.concat second)) stack
  | length => onString (fun value => .term value.length) stack
  | matchesPattern => takeMatch stack
  | contains =>
    onStrings (fun first second => .term (first.contains second)) stack
  | startsWith =>
    onStrings (fun first second => .term (first.startsWith second)) stack
  | endsWith =>
    onStrings (fun first second => .term (first.endsWith second)) stack
  | compareLength relation count =>
    onString (fun value => .term (value.compareLength relation count)) stack
  | lengthBetween low high =>
    onString (fun value => .term (value.lengthBetween low high)) stack
  | stringTerm => onString (fun value => .term value.term) stack

end StringWord

end FlowWitness.Smt
