import AgentScript.Graph.Basic

/-!
# What belongs to which agent

An edge gives a member to an agent if one of its ends is an agent and the other is not; the
direction does not matter.  Ends are looked up by id, and the first node with an id counts.  Every
other edge means nothing: one with an end that is no node, one between two agents, and one between
two members.

A tool or an event handler belongs to an agent once, however many edges say so, in the place of the
first of them.  Of the states given to an agent the last one counts.

What the edges mean depends neither on where the nodes stand nor on the ids of the edges, and the
canonical script of a graph is made from it.
-/

namespace AgentScript

/-- A member that an edge gives to an agent. -/
structure Link where
  /-- The id of the agent. -/
  agent : String
  /-- The id of the member. -/
  member : String
  /-- What the member says. -/
  content : Content
  deriving DecidableEq, Repr, Inhabited

/-- The kind of the member. -/
def Link.kind (l : Link) : NodeKind := l.content.kind

/-- What the edges of a graph mean, in their order. -/
abbrev Links := List Link

namespace Graph

/-- What an edge means. -/
def link? (g : Graph) (e : Edge) : Option Link :=
  match g.node? e.source, g.node? e.target with
  | some s, some t =>
    if s.kind = .agent then if t.kind = .agent then none else some ⟨s.id, t.id, t.content⟩
    else if t.kind = .agent then some ⟨t.id, s.id, s.content⟩
    else none
  | _, _ => none

/-- What the edges mean, in their order. -/
def links (g : Graph) : Links := g.edges.filterMap g.link?

end Graph

namespace Links

/-- The links of an agent, each in the place of the first edge that means it. -/
def of (ls : Links) (agent : String) : Links := (ls.filter (·.agent == agent)).eraseDups

/-- The tools of an agent. -/
def toolsUnder (ls : Links) (agent : String) : List ToolContent :=
  (ls.of agent).filterMap (·.content.tool?)

/-- The event handlers of an agent. -/
def eventsUnder (ls : Links) (agent : String) : List EventContent :=
  (ls.of agent).filterMap (·.content.event?)

/-- The link to the state that counts for an agent. -/
def stateUnder? (ls : Links) (agent : String) : Option Link :=
  (ls.filter fun l => l.agent == agent && l.kind == .state).getLast?

/-- Whether a node of the given kind is given to some agent. -/
def holds (ls : Links) (kind : NodeKind) (id : String) : Bool :=
  ls.any fun l => l.kind == kind && l.member == id

/-- The ids of the agents that have members, each once. -/
def agents (ls : Links) : List String := (ls.map (·.agent)).eraseDups

/-- Whether a state counts for some agent. -/
def isAgentState (ls : Links) (id : String) : Bool :=
  ls.agents.any fun agent => (ls.stateUnder? agent).any (·.member == id)

/-- The ids of the agents a tool is given to, in order. -/
def ownersOf (ls : Links) (tool : String) : List String :=
  ((ls.filter fun l => l.kind == .tool && l.member == tool).map (·.agent)).eraseDups.mergeSort

end Links

end AgentScript
