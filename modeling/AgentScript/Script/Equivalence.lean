import AgentScript.Text.Blank
import AgentScript.Text.Lines

/-!
# When two scripts say the same

Two scripts are *equivalent* if they differ only in blanks at either end of their lines and in
lines without any other character.
-/

namespace AgentScript.Script

open AgentScript.Text

/-- The lines of a text without the blanks around them, empty ones left out. -/
def codeLines (text : String) : List (List Char) :=
  ((lines text.toList).map trim).filter (!·.isEmpty)

/-- Whether two scripts are equivalent. -/
def equivalent (a b : String) : Bool := codeLines a == codeLines b

end AgentScript.Script
