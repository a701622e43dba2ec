import AgentScript.Outline
import AgentScript.Script.Field
import AgentScript.Script.Finding

/-!
# Open scopes

Every opening brace that is not yet closed is a *scope*, kept together with what opened it.  The
scopes that are open at a point of the script form a list, the innermost first; a closing brace
closes the head of the list.  A declaration belongs to the innermost agent that is open around it,
however many other scopes stand between the two.
-/

namespace AgentScript.Script

/-- An open brace, with what is known about the declaration that opened it. -/
inductive Scope where
  | agent (name : String) (line : Nat)
  /-- A state block and the fields read so far.  Without an owner it is not recorded. -/
  | state (owner : Option String) (place : Place) (fields : List StateField)
  | type (name : String) (place : Place) (fields : List TypeField)
  /-- The body of a tool or of an event handler, or any other pair of braces. -/
  | block (line : Nat)
  deriving DecidableEq, Repr, Inhabited

namespace Scope

/-- The line of the opening brace. -/
def line : Scope → Nat
  | .agent _ line => line
  | .state _ place _ => place.line
  | .type _ place _ => place.line
  | .block line => line

/-- What opened the brace. -/
def opener : Scope → Opener
  | .agent name _ => .agent name
  | .state _ _ _ => .state
  | .type name _ _ => .type name
  | .block _ => .block

/-- Whether the body holds fields and nothing else. -/
def holdsFields : Scope → Bool
  | .state _ _ _ => true
  | .type _ _ _ => true
  | _ => false

/-- The scope after a stretch of its body: fields are collected where the body holds fields. -/
def collect (segment : List Char) : Scope → Scope
  | .state owner place fields => .state owner place (fields ++ stateFields segment)
  | .type name place fields => .type name place (fields ++ typeFields segment)
  | scope => scope

/-- The name of an agent's scope. -/
def agentName? : Scope → Option String
  | .agent name _ => some name
  | _ => none

end Scope

/-- The innermost agent among the open scopes. -/
def innermostAgent? (scopes : List Scope) : Option String := scopes.findSome? Scope.agentName?

end AgentScript.Script
