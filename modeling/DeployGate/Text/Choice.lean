/-!
# Choices

How a message names what would have been accepted.
-/

namespace DeployGate.Text

def inBackticks (name : String) : String := "`" ++ name ++ "`"

/-- The names in backticks, as a choice between them. -/
def offer : List String → String
  | [] => "nothing"
  | [a, b] => inBackticks a ++ " or " ++ inBackticks b
  | names => String.intercalate ", " (names.map inBackticks)

end DeployGate.Text
