import FlowWitness.Smt.SExprReader
import FlowWitness.Text.Utf8

/-!
# Framing responses

A response is the shortest run of whole lines that holds a complete
expression.  The last line of an output that has ended counts as whole.  What
follows the response stays unread.
-/

namespace FlowWitness.Solver

open FlowWitness.Smt
open FlowWitness.Text

/-- What reading a response comes to, and what stays unread. -/
inductive Framing where
  | response (text : List Char) (unread : List Glyph)
  | garbled (unread : List Glyph)
  | ended
  | silent
  deriving DecidableEq, Repr

/--
Read on.  `whole` holds the lines read so far, `line` the glyphs of the line
in progress with the last one first.  Once the output is `closed` nothing will
follow it; otherwise an incomplete response waits for more.
-/
def frameFrom (closed : Bool) (whole : List Char) (line : List Glyph) :
    List Glyph → Framing
  | [] =>
    if closed then
      match line with
      | [] => .ended
      | _ :: _ =>
        match characters? line.reverse with
        | none => .garbled []
        | some characters =>
          if isComplete (whole ++ characters) then
            .response (whole ++ characters) []
          else .ended
    else .silent
  | some '\n' :: rest =>
    match characters? (some '\n' :: line).reverse with
    | none => .garbled rest
    | some characters =>
      if isComplete (whole ++ characters) then
        .response (whole ++ characters) rest
      else frameFrom closed (whole ++ characters) [] rest
  | glyph :: rest => frameFrom closed whole (glyph :: line) rest

/-- Read one response from the unread output. -/
def frame (closed : Bool) (unread : List Glyph) : Framing :=
  frameFrom closed [] [] unread

end FlowWitness.Solver
