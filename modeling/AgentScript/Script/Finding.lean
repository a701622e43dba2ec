import AgentScript.Diagnostic
import AgentScript.Script.Header

/-!
# What can be wrong with a script

Reading a script never fails.  What it stumbles over is kept as a *finding*: a cause, which decides
the severity and the wording, and the line it is reported on.  Braces that do not match are errors,
everything else is a warning.
-/

namespace AgentScript.Script

/-- The two kinds of member that are told apart by name. -/
inductive MemberKind where
  | tool
  | event
  deriving DecidableEq, Repr, Inhabited

def MemberKind.name : MemberKind → String
  | .tool => "tool"
  | .event => "event"

/-- What opened a brace. -/
inductive Opener where
  | agent (name : String)
  | state
  | type (name : String)
  | block
  deriving DecidableEq, Repr, Inhabited

def Opener.describe : Opener → String
  | .agent name => "agent '" ++ name ++ "'"
  | .state => "state block"
  | .type name => "type '" ++ name ++ "'"
  | .block => "block"

/-- The cause of a finding. -/
inductive Cause where
  /-- An agent whose name an earlier agent has. -/
  | agentAgain (name : String)
  /-- A member whose name an earlier member of the same kind and agent has. -/
  | memberAgain (agent : String) (kind : MemberKind) (name : String)
  /-- A state block of an agent that has one. -/
  | stateAgain (agent : String)
  /-- A tool that no agent encloses. -/
  | toolOutside (name : String)
  /-- An event handler that no agent encloses. -/
  | eventOutside (name : String)
  /-- A state block that no agent encloses. -/
  | stateOutside
  /-- A closing brace with nothing to close. -/
  | strayBrace
  /-- An opening brace that is still open at the end of the text. -/
  | neverClosed (opener : Opener) (line : Nat)
  deriving DecidableEq, Repr, Inhabited

namespace Cause

def severity : Cause → Severity
  | .strayBrace => .error
  | .neverClosed _ _ => .error
  | _ => .warning

def message : Cause → String
  | .agentAgain name => "agent '" ++ name ++ "' is declared more than once"
  | .memberAgain agent kind name =>
    "agent '" ++ agent ++ "' declares " ++ kind.name ++ " '" ++ name ++ "' more than once"
  | .stateAgain agent => "agent '" ++ agent ++ "' declares more than one state block"
  | .toolOutside name => "tool '" ++ name ++ "' is declared outside of an agent"
  | .eventOutside name => "event handler '" ++ name ++ "' is declared outside of an agent"
  | .stateOutside => "state block is declared outside of an agent"
  | .strayBrace => "unexpected '\x7d' with no open block"
  | .neverClosed opener line =>
    opener.describe ++ " opened on line " ++ toString line ++ " is never closed"

end Cause

/-- A cause and the line it is reported on. -/
structure Finding where
  line : Nat
  cause : Cause
  deriving DecidableEq, Repr, Inhabited

/-- The finding as it is reported. -/
def Finding.toDiagnostic (f : Finding) : Diagnostic where
  severity := f.cause.severity
  message := f.cause.message
  line := f.line

end AgentScript.Script
