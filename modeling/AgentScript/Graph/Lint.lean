import AgentScript.Graph.Links
import AgentScript.Script.Field

/-!
# What the canonical script of a graph leaves out

Every graph has a canonical script, but not everything in a graph gets into it, and not everything
in it can be read back.  These findings tell what: ids that repeat, edges that lead nowhere, tools
that several agents share, members without an agent, and values that the reader of scripts would
take for something else.
-/

namespace AgentScript

namespace Lint

open AgentScript.Text

/-- What can be wrong with a graph. -/
inductive Cause where
  | repeatedId (id : String)
  | missingNode (edge id : String)
  | sharedTool (label : String) (owners : List String)
  | looseTool (label : String)
  | looseEvent (label : String)
  | badLabel (kind : NodeKind) (label : String)
  | badParams (label : String)
  | badReturns (label returns : String)
  | badValue (kind : NodeKind) (label field : String)
  deriving DecidableEq, Repr, Inhabited

namespace Cause

def severity : Cause → Severity
  | .repeatedId _ => .error
  | _ => .warning

def message : Cause → String
  | .repeatedId id => "node id '" ++ id ++ "' is used by more than one node"
  | .missingNode edge id => "edge '" ++ edge ++ "' references missing node '" ++ id ++ "'"
  | .sharedTool label owners =>
    "tool '" ++ label ++ "' is linked to " ++ toString owners.length ++ " agents (" ++
      ", ".intercalate owners ++ ") and is emitted under each"
  | .looseTool label => "tool '" ++ label ++ "' is not linked to any agent and is dropped"
  | .looseEvent label => "event '" ++ label ++ "' is not linked to any agent and is dropped"
  | .badLabel kind label =>
    kind.name ++ " label '" ++ label ++ "' is not an identifier and does not parse back"
  | .badParams label => "tool '" ++ label ++ "' parameters contain ')' and do not parse back"
  | .badReturns label returns =>
    "tool '" ++ label ++ "' return type '" ++ returns ++ "' does not parse back"
  | .badValue kind label field =>
    kind.name ++ " '" ++ label ++ "' " ++ field ++
      " contains a quote or line break and does not parse back"

/-- The finding as it is reported; a graph has no lines. -/
def toDiagnostic (c : Cause) : Diagnostic := ⟨c.severity, c.message, 0⟩

end Cause

/-- The nodes whose id an earlier node has; `seen` holds the ids of the nodes before. -/
def repeatedIds (seen : List String) : List Node → List Cause
  | [] => []
  | n :: rest =>
    (if seen.contains n.id then [.repeatedId n.id] else []) ++ repeatedIds (n.id :: seen) rest

/-- The ends of edges that are no nodes. -/
def missingNodes (g : Graph) : List Cause :=
  g.edges.flatMap fun e =>
    ([e.source, e.target].filter fun id => (g.node? id).isNone).map (.missingNode e.id)

/-- The tools of several agents. -/
def sharedTools (g : Graph) (ls : Links) : List Cause :=
  (g.nodesOf .tool).filterMap fun t =>
    let owners := ls.ownersOf t.id
    if 1 < owners.length then some (.sharedTool t.label owners) else none

/-- The tools that are left out: those without an agent, if there are agents. -/
def looseTools (g : Graph) (ls : Links) : List Cause :=
  if (g.nodesOf .agent).isEmpty then []
  else ((g.nodesOf .tool).filter fun t => !ls.holds .tool t.id).map fun t => .looseTool t.label

/-- The event handlers that are left out. -/
def looseEvents (g : Graph) (ls : Links) : List Cause :=
  ((g.nodesOf .event).filter fun e => !ls.holds .event e.id).map fun e => .looseEvent e.label

/-- Whether the script of a graph names a node.  A state block has no name, and a type without a
label is given one. -/
def isNamed (ls : Links) (n : Node) : Bool :=
  !(n.kind == .state && (ls.isAgentState n.id || n.label == ""))

/-- Whether a quoted value ends too early or goes on in the next line. -/
def breaksQuotes (value : String) : Bool :=
  value.toList.any fun c => c == '"' || c == '\'' || c == '\n'

/-- The finding about a field with a quoted value. -/
def badValue (n : Node) (field : String) (value : Option String) : List Cause :=
  if value.any breaksQuotes then [.badValue n.kind n.label field] else []

/-- The findings about the signature of a tool. -/
def badSignature (t : ToolContent) : List Cause :=
  let returns := t.returns.getD ""
  (if t.params.any (·.toList.contains ')') then [.badParams t.label] else []) ++
    (if returns ≠ "" ∧ Script.isType returns.toList = false then [.badReturns t.label returns]
      else [])

/-- What one node says that would not be read back. -/
def unreadable (ls : Links) (n : Node) : List Cause :=
  (if isNamed ls n && !isName n.label.toList then [.badLabel n.kind n.label] else []) ++
    match n.content with
    | .agent a =>
      badValue n "description" a.description ++ badValue n "version" a.version ++
        badValue n "model" a.model ++ badValue n "provider" a.provider
    | .tool t => badSignature t ++ badValue n "description" t.description
    | .event _ => []
    | .state _ => []

/-- Everything that is found in a graph, in the order in which it is reported. -/
def causes (g : Graph) : List Cause :=
  let ls := g.links
  repeatedIds [] g.nodes ++ missingNodes g ++ sharedTools g ls ++ looseTools g ls ++
    looseEvents g ls ++ g.nodes.flatMap (unreadable ls)

end Lint

/-- The findings about a graph. -/
def Graph.lint (g : Graph) : List Diagnostic := (Lint.causes g).map Lint.Cause.toDiagnostic

end AgentScript
