import AgentScript.Diagnostic

/-!
# The outline of a script

Reading a script keeps its declarations and drops everything else: bodies of tools and of event
handlers, comments, and lines that declare nothing.  What is kept is the *outline*, five lists of
declarations in the order in which they were recorded, and the diagnostics.

Tools, event handlers and state blocks name the agent they belong to; types belong to no agent.
-/

namespace AgentScript

/-- A place in a script: line and column, both counted from one, the column in characters. -/
structure Place where
  line : Nat
  column : Nat
  deriving DecidableEq, Repr, Inhabited

/-- The model an agent asks for. -/
structure ModelChoice where
  provider : Option String := none
  name : Option String := none
  deriving DecidableEq, Repr, Inhabited

/-- A declared agent. -/
structure AgentDecl where
  name : String
  description : Option String
  version : Option String
  model : Option ModelChoice
  place : Place
  deriving DecidableEq, Repr, Inhabited

/-- A declared tool. -/
structure ToolDecl where
  name : String
  /-- What stands between the parentheses, without the blanks at either end. -/
  params : String
  returns : Option String
  description : Option String
  agent : String
  place : Place
  deriving DecidableEq, Repr, Inhabited

/-- What an event handler is for, as far as its name tells. -/
inductive EventClass where
  | input
  | output
  | start
  | stop
  | custom
  deriving DecidableEq, Repr, Inhabited

namespace EventClass

/-- The class of a handler, by its name; a name that says nothing is `custom`. -/
def ofName (name : String) : EventClass :=
  if name = "user_message" ∨ name = "message" then .input
  else if name = "response" ∨ name = "output" then .output
  else if name = "start" ∨ name = "init" then .start
  else if name = "stop" ∨ name = "shutdown" then .stop
  else .custom

/-- The name of a class in documents. -/
def name : EventClass → String
  | .input => "input"
  | .output => "output"
  | .start => "start"
  | .stop => "stop"
  | .custom => "custom"

/-- Every class, in the order in which documents list them. -/
def all : List EventClass := [.input, .output, .start, .stop, .custom]

end EventClass

/-- A declared event handler. -/
structure EventDecl where
  name : String
  eventClass : EventClass
  agent : String
  place : Place
  deriving DecidableEq, Repr, Inhabited

/-- A field of a state block. -/
structure StateField where
  name : String
  type : String
  optional : Bool
  deriving DecidableEq, Repr, Inhabited

/-- The field as a state block spells it: `name: type` or `name?: type`. -/
def StateField.render (f : StateField) : String :=
  f.name ++ (if f.optional then "?" else "") ++ ": " ++ f.type

/-- A declared state block. -/
structure StateDecl where
  agent : String
  fields : List StateField
  place : Place
  deriving DecidableEq, Repr, Inhabited

/-- A field of a type; it is never optional. -/
structure TypeField where
  name : String
  type : String
  deriving DecidableEq, Repr, Inhabited

/-- The field as a type spells it: `name: type`. -/
def TypeField.render (f : TypeField) : String := f.name ++ ": " ++ f.type

/-- A declared type. -/
structure TypeDecl where
  name : String
  fields : List TypeField
  place : Place
  deriving DecidableEq, Repr, Inhabited

/-- Everything recorded while a script was read. -/
structure Outline where
  agents : List AgentDecl := []
  tools : List ToolDecl := []
  events : List EventDecl := []
  states : List StateDecl := []
  types : List TypeDecl := []
  diagnostics : List Diagnostic := []
  deriving DecidableEq, Repr, Inhabited

namespace Outline

/-- The tools of an agent, in the order in which they were recorded. -/
def toolsUnder (o : Outline) (agent : String) : List ToolDecl :=
  o.tools.filter (·.agent == agent)

/-- The event handlers of an agent, in the order in which they were recorded. -/
def eventsUnder (o : Outline) (agent : String) : List EventDecl :=
  o.events.filter (·.agent == agent)

/-- The first state block recorded for an agent. -/
def stateUnder? (o : Outline) (agent : String) : Option StateDecl :=
  o.states.find? (·.agent == agent)

/-- Whether some diagnostic is an error. -/
def isFaulty (o : Outline) : Bool := o.diagnostics.any Diagnostic.isError

/-- Whether nothing was declared; diagnostics do not count. -/
def isEmpty (o : Outline) : Bool :=
  o.agents.isEmpty && o.tools.isEmpty && o.events.isEmpty && o.states.isEmpty && o.types.isEmpty

end Outline

end AgentScript
