import AgentScript.Graph.Canonical
import AgentScript.Graph.Lint
import AgentScript.Proofs.Script.Fields
import AgentScript.Proofs.Script.Growth
import AgentScript.Proofs.Text.Splitting

/-!
# Sheets

The canonical script of a graph depends on the graph only through what each agent is given and
through the states that count for no agent.  What an agent is given is its *sheet*: its own content,
the fields of its state, its tools and its event handlers.  A graph with tools and without agents
has one sheet, of the agent that holds them (`Graph.sheets`).

A sheet stands between the two views.  It is written as one block of the script
(`Canonical.blocks_eq`), and what reading that block declares is told by the sheet alone
(`Sheet.declared`).
-/

namespace AgentScript

/-- All that a canonical script says under one agent. -/
structure Sheet where
  agent : AgentContent
  /-- The fields of the state that counts for the agent, if there is one. -/
  fields : Option (List String) := none
  tools : List ToolContent := []
  events : List EventContent := []
  deriving DecidableEq, Repr

namespace Sheet

open Canonical

/-- The sheet of an agent under the given id. -/
def under (ls : Links) (id : String) (agent : AgentContent) : Sheet where
  agent
  fields := ((ls.stateUnder? id).bind (·.content.state?)).bind (·.fields)
  tools := ls.toolsUnder id
  events := ls.eventsUnder id

/-- The sheet of the agent that holds the tools of a graph without agents. -/
def placeholder (tools : List ToolContent) : Sheet where
  agent := { label := placeholderAgent, description := some placeholderDescription }
  tools

/-- The lines of an agent's own clauses. -/
def ownLines (s : Sheet) : List String :=
  ((filled s.agent.description).map (clauseLine "  " "description")).toList ++
    ((filled s.agent.version).map (clauseLine "  " "version")).toList ++ modelLines s.agent

/-- The lines of an agent's members. -/
def memberLines (s : Sheet) : List String :=
  stateLines (s.fields.getD []) ++ s.tools.flatMap toolLines ++ s.events.flatMap eventLines

/-- The block of an agent. -/
def lines (s : Sheet) : List String :=
  opening ("agent " ++ s.agent.label) :: (s.ownLines ++ (s.memberLines ++ ["\x7d"]))

end Sheet

namespace Graph

/-- The sheets of the agents of a graph, in the order of their nodes. -/
def agentSheets (g : Graph) : List Sheet :=
  g.nodes.filterMap fun n => n.content.agent?.map (Sheet.under g.links n.id)

/-- The sheets of a graph: those of its agents, or the one that holds its tools if it has none. -/
def sheets (g : Graph) : List Sheet :=
  if g.agentSheets.isEmpty then
    match Canonical.looseTools g.links g.nodes with
    | [] => []
    | tools => [Sheet.placeholder tools]
  else g.agentSheets

/-- The states that count for no agent. -/
def looseStates (g : Graph) : List StateContent :=
  (g.nodes.filter fun n => !g.links.isAgentState n.id).filterMap (·.content.state?)

end Graph

namespace Canonical

lemma agentBlock_eq_lines (ls : Links) (id : String) (a : AgentContent) :
    agentBlock ls id a = (Sheet.under ls id a).lines := by
  simp only [agentBlock, Sheet.lines, Sheet.ownLines, Sheet.memberLines, memberLines, fieldsOf,
    Sheet.under, List.append_assoc, List.cons_append, List.nil_append]

lemma placeholderBlock?_eq_lines {tools : List ToolContent} (h : tools ≠ []) :
    placeholderBlock? tools = some (Sheet.placeholder tools).lines := by
  have hdescription : filled (some placeholderDescription) = some placeholderDescription := rfl
  have hmodel : modelLines (Sheet.placeholder tools).agent = [] := rfl
  have hversion : filled (Sheet.placeholder tools).agent.version = none := rfl
  cases tools with
  | nil => exact absurd rfl h
  | cons t tools =>
    rw [placeholderBlock?, Sheet.lines, Sheet.ownLines, Sheet.memberLines, hmodel, hversion]
    · simp [Sheet.placeholder, hdescription, stateLines]
    · exact h

/-- The canonical script is written from the sheets and the states that count for no agent. -/
theorem blocks_eq (g : Graph) :
    blocks g = g.sheets.map Sheet.lines ++ g.looseStates.filterMap typeBlock? := by
  have hagents : agentBlocks g.links g.nodes = g.agentSheets.map Sheet.lines := by
    have hnode : ∀ n : Node, n.content.agent?.map (agentBlock g.links n.id) =
        (n.content.agent?.map (Sheet.under g.links n.id)).map Sheet.lines := by
      intro n
      rw [Option.map_map]
      exact congrArg (n.content.agent?.map ·) (funext fun a => agentBlock_eq_lines g.links n.id a)
    rw [agentBlocks, Graph.agentSheets, List.map_filterMap]
    simp only [hnode]
  have htypes : typeBlocks g.links g.nodes = g.looseStates.filterMap typeBlock? := by
    rw [typeBlocks, Graph.looseStates, List.filterMap_filterMap]
  rw [blocks, hagents, htypes, Graph.sheets, List.isEmpty_map]
  by_cases hempty : g.agentSheets.isEmpty = true
  · rw [if_pos hempty, if_pos hempty]
    cases htools : looseTools g.links g.nodes with
    | nil => rfl
    | cons t tools =>
      rw [placeholderBlock?_eq_lines (List.cons_ne_nil t tools)]
      rfl
  · rw [if_neg hempty, if_neg hempty]

end Canonical

/-! ## What reading a block declares -/

/-- The fields that a state block takes from one of its lines. -/
def Script.stateFieldsIn (line : String) : List StateField :=
  Script.stateFields (Script.mask .code line.toList)

/-- The fields that a type takes from one of its lines. -/
def Script.typeFieldsIn (line : String) : List TypeField :=
  Script.typeFields (Script.mask .code line.toList)

namespace Sheet

open Canonical

/-- The agent a sheet declares. -/
def agentDecl (s : Sheet) : AgentDecl where
  name := s.agent.label
  description := filled s.agent.description
  version := filled s.agent.version
  model := (filled s.agent.model).map fun name =>
    ⟨some ((filled s.agent.provider).getD defaultProvider), some name⟩
  place := default

/-- A tool of a sheet, as it is declared under the agent. -/
def toolDecl (agent : String) (t : ToolContent) : ToolDecl where
  name := t.label
  params := String.ofList (Text.trim (t.params.getD "").toList)
  returns := filled t.returns
  description := filled t.description
  agent
  place := default

/-- An event handler of a sheet, as it is declared under the agent. -/
def eventDecl (agent : String) (e : EventContent) : EventDecl where
  name := e.label
  eventClass := .ofName e.label
  agent
  place := default

/-- The state block a sheet declares; none without fields. -/
def stateDecls (s : Sheet) : List StateDecl :=
  match s.fields.getD [] with
  | [] => []
  | fields => [⟨s.agent.label, fields.flatMap Script.stateFieldsIn, default⟩]

/-- What a sheet declares. -/
def declared (s : Sheet) : Outline where
  agents := [s.agentDecl]
  tools := s.tools.map (toolDecl s.agent.label)
  events := s.events.map (eventDecl s.agent.label)
  states := s.stateDecls

end Sheet

namespace StateContent

/-- The name of the type that a state is written as. -/
def typeName (s : StateContent) : String :=
  if s.label = "" then Canonical.fallbackTypeName else s.label

/-- What a state that counts for no agent declares; nothing without fields. -/
def declared (s : StateContent) : Outline :=
  match s.fields.getD [] with
  | [] => {}
  | fields =>
    { types := [⟨s.typeName,
        fields.flatMap fun f => Script.typeFieldsIn (Canonical.required f), default⟩] }

end StateContent

/-! ## Sheets that come back -/

/-- A field as a state block spells it, with a name and a type that come back. -/
def IsField (text : String) : Prop :=
  ∃ f : StateField, Script.Writable f.name f.type ∧ text = f.render

/-- A field as a type spells it, with a name and a type that come back. -/
def IsTypeField (text : String) : Prop :=
  ∃ f : TypeField, Script.Writable f.name f.type ∧ text = f.render

/-- Parameters without quotes, grave accents, braces and comment signs. -/
def PlainParams (params : String) : Prop :=
  Script.Plain params.toList ∧ Script.Braceless params.toList

/-- The string is a line as it stands between two line breaks. -/
def IsTextLine (l : String) : Prop := Text.IsLine l.toList

instance : DecidablePred IsTextLine := fun l =>
  inferInstanceAs (Decidable ('\n' ∉ l.toList ∧ l.toList.getLast? ≠ some '\r'))

/-- A text that stands on a line of a body of fields without ending the line or the body: it holds
no line break, and no brace outside literals and comments. -/
def IsBodyLine (text : String) : Prop :=
  IsTextLine text ∧ Script.Braceless (Script.mask .code text.toList)

instance : DecidablePred IsBodyLine := fun text =>
  inferInstanceAs (Decidable (IsTextLine text ∧ Script.Braceless (Script.mask .code text.toList)))

/-- The line that opens a tool. -/
def ToolContent.headerLine (t : ToolContent) : String :=
  Canonical.opening ("  tool " ++ t.label ++ "(" ++ t.params.getD "" ++ ")" ++
    ((Canonical.filled t.returns).map (" -> " ++ ·)).getD "")

open Text Script in
/-- A tool that comes back.  The search for an agent's clauses goes by the braces of a line, and
would take the description of a tool for that of the agent if it missed the brace before it. -/
structure ToolContent.Readable (t : ToolContent) : Prop where
  isName : isName t.label.toList = true
  params : ∀ params ∈ t.params, ')' ∉ params.toList ∧ '\n' ∉ params.toList
  returns : ∀ type ∈ Canonical.filled t.returns, isType type.toList = true ∧ '\n' ∉ type.toList
  description : ∀ text ∈ t.description, Lint.breaksQuotes text = false
  opens : Canonical.filled t.description ≠ none → 0 < netBraces t.headerLine.toList

open Text in
/-- A sheet that comes back. -/
structure Sheet.Readable (s : Sheet) : Prop where
  isName : isName s.agent.label.toList = true
  description : ∀ text ∈ s.agent.description, Lint.breaksQuotes text = false
  version : ∀ text ∈ s.agent.version, Lint.breaksQuotes text = false
  model : ∀ text ∈ s.agent.model, Lint.breaksQuotes text = false
  provider : ∀ text ∈ s.agent.provider, Lint.breaksQuotes text = false
  fields : ∀ f ∈ s.fields.getD [], IsBodyLine f
  tools : ∀ t ∈ s.tools, t.Readable
  events : ∀ e ∈ s.events, Text.isName e.label.toList = true

open Text in
/-- A state that comes back as a type. -/
structure StateContent.Readable (s : StateContent) : Prop where
  isName : isName s.typeName.toList = true
  fields : ∀ f ∈ s.fields.getD [], IsBodyLine (Canonical.required f)

end AgentScript
