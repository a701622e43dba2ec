import AgentScript.Outline

/-!
# Workflow graphs

The second view of a workflow is a graph, as an editor draws it: nodes on a canvas, each with the
content its kind calls for, and edges between them.  A graph comes out of the layout of an outline,
or from an editor, and then anything goes: ids may repeat, edges may lead nowhere.
-/

namespace AgentScript

/-- A place on the canvas: the top left corner of a node. -/
structure Position where
  x : Float
  y : Float
  deriving Repr, Inhabited, BEq

/-- The kinds of node. -/
inductive NodeKind where
  | agent
  | tool
  | event
  | state
  deriving DecidableEq, Repr, Inhabited

/-- The name of a kind, in messages and in documents. -/
def NodeKind.name : NodeKind → String
  | .agent => "agent"
  | .tool => "tool"
  | .event => "event"
  | .state => "state"

structure AgentContent where
  label : String
  description : Option String := none
  version : Option String := none
  /-- The name of the model. -/
  model : Option String := none
  provider : Option String := none
  deriving DecidableEq, Repr, Inhabited

structure ToolContent where
  label : String
  params : Option String := none
  returns : Option String := none
  description : Option String := none
  deriving DecidableEq, Repr, Inhabited

structure EventContent where
  label : String
  eventClass : Option EventClass := none
  deriving DecidableEq, Repr, Inhabited

structure StateContent where
  label : String
  /-- The fields as a script spells them. -/
  fields : Option (List String) := none
  deriving DecidableEq, Repr, Inhabited

/-- What a node says, by its kind. -/
inductive Content where
  | agent (content : AgentContent)
  | tool (content : ToolContent)
  | event (content : EventContent)
  | state (content : StateContent)
  deriving DecidableEq, Repr, Inhabited

namespace Content

def kind : Content → NodeKind
  | .agent _ => .agent
  | .tool _ => .tool
  | .event _ => .event
  | .state _ => .state

def label : Content → String
  | .agent d => d.label
  | .tool d => d.label
  | .event d => d.label
  | .state d => d.label

def agent? : Content → Option AgentContent
  | .agent d => some d
  | _ => none

def tool? : Content → Option ToolContent
  | .tool d => some d
  | _ => none

def event? : Content → Option EventContent
  | .event d => some d
  | _ => none

def state? : Content → Option StateContent
  | .state d => some d
  | _ => none

end Content

structure Node where
  id : String
  position : Position
  content : Content
  deriving Repr, Inhabited, BEq

namespace Node

def kind (n : Node) : NodeKind := n.content.kind

def label (n : Node) : String := n.content.label

end Node

structure Edge where
  id : String
  source : String
  target : String
  sourceHandle : Option String := none
  targetHandle : Option String := none
  deriving DecidableEq, Repr, Inhabited

namespace Edge

/-- The edge from one node to another, with the id such edges have. -/
def joining (source target : String) : Edge where
  id := "edge-" ++ source ++ "-" ++ target
  source
  target

/-- The edge with a handle at its source. -/
def leavingAt (e : Edge) (handle : String) : Edge := { e with sourceHandle := some handle }

/-- Whether a node is at either end of an edge. -/
def meets (e : Edge) (id : String) : Bool := e.source == id || e.target == id

end Edge

/-- A workflow as an editor shows it. -/
structure Graph where
  nodes : List Node := []
  edges : List Edge := []
  deriving Repr, Inhabited, BEq

namespace Graph

/-- The first node with the given id. -/
def node? (g : Graph) (id : String) : Option Node := g.nodes.find? (·.id == id)

/-- The nodes of one kind. -/
def nodesOf (g : Graph) (kind : NodeKind) : List Node := g.nodes.filter (·.kind == kind)

/-- The ids of the edges at a node. -/
def edgesAt (g : Graph) (id : String) : List String :=
  (g.edges.filter (·.meets id)).map (·.id)

/-- Whether there is neither a node nor an edge. -/
def isEmpty (g : Graph) : Bool := g.nodes.isEmpty && g.edges.isEmpty

end Graph

end AgentScript
