import DeployGate.Text.ByteCount
import DeployGate.Toml.Item

/-!
# Complaints

A complaint is about a part of a document. Its message shows the line on which the part starts, with
carets under it up to the end of the line.
-/

namespace DeployGate.Toml

structure Complaint where
  span : Span
  detail : String
  deriving DecidableEq, Repr

/-- A line of a document, counted from 1, and how many of its characters stand before a place. -/
structure Spot where
  line : Nat
  column : Nat
  content : List Char

def Span.spot (span : Span) (document : List Char) : Spot :=
  let before := document.take (document.length - span.start.length)
  let lead := (before.reverse.takeWhile (· ≠ '\n')).reverse
  ⟨before.count '\n' + 1, lead.length, lead ++ span.start.takeWhile (· ≠ '\n')⟩

def Span.size (span : Span) : Nat := Text.byteCount span.start - Text.byteCount span.stop

/-- How many carets there are after the first: one for every further byte of the part, as far as the
line goes. -/
def Span.moreCarets (span : Span) (spot : Spot) : Nat :=
  min span.size (Text.byteCount spot.content - spot.column) - 1

def Complaint.message (complaint : Complaint) (document : String) : String :=
  let spot := complaint.span.spot document.toList
  let line := toString spot.line
  let margin := "".pushn ' ' line.length ++ " |"
  "TOML parse error at line " ++ line ++ ", column " ++ toString (spot.column + 1) ++ "\n"
    ++ margin ++ "\n"
    ++ line ++ " | " ++ String.ofList spot.content ++ "\n"
    ++ margin ++ " ".pushn ' ' spot.column
    ++ "^".pushn '^' (complaint.span.moreCarets spot) ++ "\n"
    ++ complaint.detail ++ "\n"

end DeployGate.Toml
