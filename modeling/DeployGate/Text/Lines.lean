import DeployGate.Text.Blank

/-!
# Lines

A text is cut at its line feeds. The lines that matter are trimmed and not empty; a carriage return
before a line feed is blank, so both line endings give the same lines.
-/

namespace DeployGate.Text

/-- The pieces between the line feeds of a text, always one more than there are line feeds. -/
def pieces : List Char → List (List Char)
  | [] => [[]]
  | c :: rest => if c = '\n' then [] :: pieces rest else (pieces rest).modifyHead (c :: ·)

/-- The trimmed lines of a text, without those that are blank. -/
def solidLines (text : List Char) : List (List Char) :=
  ((pieces text).map trim).filter (!·.isEmpty)

end DeployGate.Text
