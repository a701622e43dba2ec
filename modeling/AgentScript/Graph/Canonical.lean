import AgentScript.Graph.Links
import AgentScript.Text.Lines

/-!
# The canonical script of a graph

A graph is written back as a script of *blocks* with an empty line between any two: the agents in
the order of their nodes, then the states that count for no agent, as types.  Bodies of tools and
event handlers are not part of a graph, so a comment stands in their place.

Members are written under the agents they are linked to.  A graph with tools and without agents
gets an agent that holds them.  What is linked to nothing is otherwise left out, and so is a state
without fields.  A type has no optional fields, so question marks are dropped there.

Values are written as they are.  A value that holds a quote or a line break does not come back when
the script is read.
-/

namespace AgentScript

namespace Canonical

/-- The provider of a model for which the graph names none. -/
def defaultProvider : String := "anthropic"

/-- The agent that holds the tools of a graph without agents. -/
def placeholderAgent : String := "UnnamedAgent"

/-- The name of a type whose node has no label. -/
def fallbackTypeName : String := "CustomState"

def placeholderDescription : String := "Auto-generated agent"

def toolBody : String := "    // Implement tool logic here"

def eventBody : String := "    // Handle event here"

/-- A value that is there and not empty. -/
def filled (value : Option String) : Option String := value.filter (· ≠ "")

/-- A line with a quoted clause. -/
def clauseLine (indent key value : String) : String := indent ++ key ++ ": \"" ++ value ++ "\""

/-- A line that opens a block. -/
def opening (header : String) : String := header ++ " \x7b"

/-- The lines of a tool, after an empty one. -/
def toolLines (t : ToolContent) : List String :=
  let returns := ((filled t.returns).map (" -> " ++ ·)).getD ""
  ["", opening ("  tool " ++ t.label ++ "(" ++ t.params.getD "" ++ ")" ++ returns)] ++
    ((filled t.description).map (clauseLine "    " "description")).toList ++
    [toolBody, "  \x7d"]

/-- The lines of an event handler, after an empty one. -/
def eventLines (e : EventContent) : List String :=
  ["", opening ("  on " ++ e.label), eventBody, "  \x7d"]

/-- The lines of the model an agent asks for, after an empty one. -/
def modelLines (a : AgentContent) : List String :=
  match filled a.model with
  | none => []
  | some model =>
    ["", opening "  model",
      clauseLine "    " "provider" ((filled a.provider).getD defaultProvider),
      clauseLine "    " "name" model, "  \x7d"]

/-- The lines of a state block, after an empty one; none without fields. -/
def stateLines : List String → List String
  | [] => []
  | fields => ["", opening "  state"] ++ fields.map ("    " ++ ·) ++ ["  \x7d"]

/-- The field with every question mark dropped. -/
def required (field : String) : String := String.ofList (field.toList.filter (· ≠ '?'))

/-- The block of a type; none without fields. -/
def typeBlock? (s : StateContent) : Option (List String) :=
  match s.fields.getD [] with
  | [] => none
  | fields =>
    let name := if s.label = "" then fallbackTypeName else s.label
    some ([opening ("type " ++ name)] ++ fields.map ("  " ++ required ·) ++ ["\x7d"])

/-- The fields of the state that counts for an agent. -/
def fieldsOf (ls : Links) (agent : String) : List String :=
  (((ls.stateUnder? agent).bind (·.content.state?)).bind (·.fields)).getD []

/-- The lines of the members of an agent: its state, its tools, its event handlers. -/
def memberLines (ls : Links) (agent : String) : List String :=
  stateLines (fieldsOf ls agent) ++ (ls.toolsUnder agent).flatMap toolLines ++
    (ls.eventsUnder agent).flatMap eventLines

/-- The block of an agent. -/
def agentBlock (ls : Links) (id : String) (a : AgentContent) : List String :=
  [opening ("agent " ++ a.label)] ++
    ((filled a.description).map (clauseLine "  " "description")).toList ++
    ((filled a.version).map (clauseLine "  " "version")).toList ++
    modelLines a ++ memberLines ls id ++ ["\x7d"]

/-- The tools that are linked to no agent. -/
def looseTools (ls : Links) (nodes : List Node) : List ToolContent :=
  (nodes.filter fun n => !ls.holds .tool n.id).filterMap (·.content.tool?)

/-- The block that holds the tools of a graph without agents. -/
def placeholderBlock? : List ToolContent → Option (List String)
  | [] => none
  | tools =>
    some ([opening ("agent " ++ placeholderAgent),
        clauseLine "  " "description" placeholderDescription] ++
      tools.flatMap toolLines ++ ["\x7d"])

/-- The blocks of the agents. -/
def agentBlocks (ls : Links) (nodes : List Node) : List (List String) :=
  nodes.filterMap fun n => n.content.agent?.map (agentBlock ls n.id)

/-- The blocks of the states that count for no agent. -/
def typeBlocks (ls : Links) (nodes : List Node) : List (List String) :=
  (nodes.filter fun n => !ls.isAgentState n.id).filterMap fun n => n.content.state?.bind typeBlock?

/-- The blocks of a graph. -/
def blocks (g : Graph) : List (List String) :=
  let ls := g.links
  let agents := agentBlocks ls g.nodes
  (if agents.isEmpty then (placeholderBlock? (looseTools ls g.nodes)).toList else agents) ++
    typeBlocks ls g.nodes

/-- The lines of some blocks, with an empty line between any two. -/
def separate : List (List String) → List String
  | [] => []
  | [block] => block
  | block :: rest => block ++ "" :: separate rest

end Canonical

/-- The canonical script of a graph; at least one line break, also if there is nothing to write. -/
def Graph.script (g : Graph) : String :=
  match Canonical.separate (Canonical.blocks g) with
  | [] => "\n"
  | lines => String.ofList (Text.unlines (lines.map String.toList))

end AgentScript
