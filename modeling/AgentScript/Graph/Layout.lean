import AgentScript.Graph.Basic

/-!
# Layout

The layout places an outline on the canvas.  Agents stand below one another, one per name; the
tools of an agent stand to its left, its event handlers to its right, and its state block below it,
each linked to the agent.  Types stand in a column of their own, without links.

Ids are made from names alone, so laying out the same outline twice gives the same ids.  Where a
name comes again, its id gets the number of the occurrence: `tool-A-t`, `tool-A-t-2`, and so on.
-/

namespace AgentScript

/-- The geometry of the canvas. -/
structure Geometry where
  agentX : Float := 300
  agentYStart : Float := 100
  agentYSpacing : Float := 400
  toolXOffset : Float := -250
  toolYOffset : Float := -50
  toolYSpacing : Float := 100
  eventXOffset : Float := 250
  eventYOffset : Float := -30
  eventYSpacing : Float := 80
  stateXOffset : Float := 0
  stateYOffset : Float := 200
  typeXOffset : Float := 600
  typeYSpacing : Float := 200
  deriving Repr, Inhabited

namespace Layout

/-- The handle at the agent's end of the edge to its state block. -/
def stateHandle : String := "state"

/-- The label of the node of a state block. -/
def stateLabel : String := "State"

/-- The graph so far, and the ids that were asked for, one for each node. -/
structure Draft where
  nodes : List Node := []
  edges : List Edge := []
  asked : List String := []
  deriving Repr, Inhabited

/-- The id that is given to a node when `asked` were asked for before it. -/
def idFor (asked : List String) (id : String) : String :=
  match asked.count id with
  | 0 => id
  | n + 1 => id ++ "-" ++ toString (n + 2)

namespace Draft

/-- Adds a node, under the id asked for if that is free. -/
def addNode (d : Draft) (id : String) (position : Position) (content : Content) : Draft :=
  { d with
    nodes := d.nodes ++ [⟨idFor d.asked id, position, content⟩]
    asked := d.asked ++ [id] }

def addEdge (d : Draft) (e : Edge) : Draft := { d with edges := d.edges ++ [e] }

end Draft

/-- The height of the `i`-th member of a column. -/
def heightOf (start spacing : Float) (i : Nat) : Float := start + Float.ofNat i * spacing

/-- Places a tool, the `i`-th of an agent whose node has the given id and height. -/
def addTool (c : Geometry) (agent agentId : String) (y : Float) (d : Draft) (t : ToolDecl)
    (i : Nat) : Draft :=
  let id := "tool-" ++ agent ++ "-" ++ t.name
  let position := ⟨c.agentX + c.toolXOffset, heightOf (y + c.toolYOffset) c.toolYSpacing i⟩
  (d.addNode id position (.tool ⟨t.name, some t.params, t.returns, t.description⟩)).addEdge
    (.joining (idFor d.asked id) agentId)

/-- Places an event handler, the `i`-th of an agent. -/
def addEvent (c : Geometry) (agent agentId : String) (y : Float) (d : Draft) (e : EventDecl)
    (i : Nat) : Draft :=
  let id := "event-" ++ agent ++ "-" ++ e.name
  let position := ⟨c.agentX + c.eventXOffset, heightOf (y + c.eventYOffset) c.eventYSpacing i⟩
  (d.addNode id position (.event ⟨e.name, some e.eventClass⟩)).addEdge
    (.joining agentId (idFor d.asked id))

/-- Places the state block of an agent, if it has one. -/
def addState (c : Geometry) (agent agentId : String) (y : Float) (d : Draft) :
    Option StateDecl → Draft
  | none => d
  | some s =>
    let id := "state-" ++ agent
    let position := ⟨c.agentX + c.stateXOffset, y + c.stateYOffset⟩
    let content := .state ⟨stateLabel, some (s.fields.map StateField.render)⟩
    (d.addNode id position content).addEdge
      ((Edge.joining agentId (idFor d.asked id)).leavingAt stateHandle)

/-- Places an agent in the given row, with its members. -/
def addAgent (c : Geometry) (o : Outline) (d : Draft) (a : AgentDecl) (row : Nat) : Draft :=
  let y := heightOf c.agentYStart c.agentYSpacing row
  let id := "agent-" ++ a.name
  let agentId := idFor d.asked id
  let d := d.addNode id ⟨c.agentX, y⟩
    (.agent ⟨a.name, a.description, a.version, a.model.bind (·.name), a.model.bind (·.provider)⟩)
  let d := (o.toolsUnder a.name).zipIdx.foldl (fun d t => addTool c a.name agentId y d t.1 t.2) d
  let d := (o.eventsUnder a.name).zipIdx.foldl (fun d e => addEvent c a.name agentId y d e.1 e.2) d
  addState c a.name agentId y d (o.stateUnder? a.name)

/-- Places a type, the `i`-th of all. -/
def addType (c : Geometry) (d : Draft) (t : TypeDecl) (i : Nat) : Draft :=
  d.addNode ("type-" ++ t.name)
    ⟨c.agentX + c.typeXOffset, heightOf c.agentYStart c.typeYSpacing i⟩
    (.state ⟨t.name, some (t.fields.map TypeField.render)⟩)

/-- The agents that get a node: the first of every name, which stands for all of that name. -/
def placedAgents : List AgentDecl → List AgentDecl
  | [] => []
  | a :: rest => a :: (placedAgents rest).filter (·.name != a.name)

end Layout

/-- The graph of an outline, with the given geometry. -/
def layoutOn (c : Geometry) (o : Outline) : Graph :=
  let d := (Layout.placedAgents o.agents).zipIdx.foldl
    (fun d a => Layout.addAgent c o d a.1 a.2) ({} : Layout.Draft)
  let d := o.types.zipIdx.foldl (fun d t => Layout.addType c d t.1 t.2) d
  ⟨d.nodes, d.edges⟩

/-- The graph of an outline, with the usual geometry. -/
def layout (o : Outline) : Graph := layoutOn {} o

end AgentScript
