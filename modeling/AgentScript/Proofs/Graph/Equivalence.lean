import AgentScript.Proofs.Graph.Regeneration
import AgentScript.Proofs.Script.Likeness

/-!
# Graphs of equivalent scripts

Equivalent scripts are laid out alike: the same nodes under the same ids in the same places, and the
same edges.  What may differ is what lookaheads found, the clauses of agents and the descriptions of
tools.  A lookahead is limited to a number of lines, blank ones included, so blank lines can push a
clause out of its reach (`layout_ne_of_equivalent`).  Where the lookaheads of both scripts read the
same lines, the graphs are equal (`layout_of_equivalent`).

A byte order mark is dropped only where it is the first character of a script.  A blank before it
makes no difference to equivalence, and makes the mark a part of the first line.
-/

namespace AgentScript

open Script Text

/-! ## Graphs without what was looked up -/

/-- The content without what a lookahead finds. -/
def Content.bare : Content → Content
  | .agent a => .agent { label := a.label }
  | .tool t => .tool { t with description := none }
  | content => content

def Node.bare (n : Node) : Node := { n with content := n.content.bare }

/-- The graph without the clauses of agents and the descriptions of tools. -/
def Graph.bare (g : Graph) : Graph := { g with nodes := g.nodes.map Node.bare }

/-- The sheet without the clauses of the agent and the descriptions of its tools. -/
def Sheet.bare (s : Sheet) : Sheet :=
  { s with
    agent := { label := s.agent.label }
    tools := s.tools.map fun t => { t with description := none } }

namespace Layout

def Draft.bare (d : Draft) : Draft := { d with nodes := d.nodes.map Node.bare }

def Request.bare (r : Request) : Request := { r with content := r.content.bare }

lemma Draft.bare_addNode (d : Draft) (id : String) (position : Position) (content : Content) :
    (d.addNode id position content).bare = d.bare.addNode id position content.bare := by
  simp [Draft.bare, Draft.addNode, Node.bare]

lemma Draft.bare_addRequest (d : Draft) (r : Request) :
    (d.addRequest r).bare = d.bare.addRequest r.bare := by
  simp [Draft.bare, Draft.addRequest, Draft.addNode, Draft.addEdge, Node.bare, Request.bare]

lemma bare_requests (c : Geometry) (agentId : String) (y : Float) (s : Sheet) :
    (requests c agentId y s).map Request.bare = requests c agentId y s.bare := by
  have htools : s.bare.tools.zipIdx =
      s.tools.zipIdx.map (Prod.map (fun t => { t with description := none }) id) :=
    List.zipIdx_map
  have hstate : ((s.fields.map (stateRequest c s.agent.label agentId y)).toList).map Request.bare =
      (s.fields.map (stateRequest c s.agent.label agentId y)).toList := by
    cases s.fields <;> rfl
  rw [requests, requests, htools, List.map_append, List.map_append, List.map_map, List.map_map,
    List.map_map, hstate]
  rfl

lemma bare_addSheet (c : Geometry) (d : Draft) (s : Sheet) (row : Nat) :
    (addSheet c d s row).bare = addSheet c d.bare s.bare row := by
  have hfold : ∀ (rs : List Request) (d : Draft), (rs.foldl Draft.addRequest d).bare =
      (rs.map Request.bare).foldl Draft.addRequest d.bare := by
    intro rs d
    rw [List.foldl_map]
    exact (List.foldl_hom Draft.bare fun d r => (d.bare_addRequest r).symm).symm
  rw [addSheet, hfold, bare_requests, Draft.bare_addNode]
  rfl

lemma bare_addLoose (c : Geometry) (d : Draft) (s : StateContent) (i : Nat) :
    (addLoose c d s i).bare = addLoose c d.bare s i :=
  Draft.bare_addNode d _ _ _

/-- A drawing without what was looked up is drawn from sheets without it. -/
lemma bare_draw (c : Geometry) (sheets : List Sheet) (states : List StateContent) :
    (draw c sheets states).bare = draw c (sheets.map Sheet.bare) states := by
  have hsheets : ∀ (ss : List (Sheet × Nat)) (d : Draft),
      (ss.foldl (fun d s => addSheet c d s.1 s.2) d).bare =
        ss.foldl (fun d s => addSheet c d s.1.bare s.2) d.bare := by
    intro ss d
    exact (List.foldl_hom Draft.bare fun d s => (bare_addSheet c d s.1 s.2).symm).symm
  have hstates : ∀ (ss : List (StateContent × Nat)) (d : Draft),
      (ss.foldl (fun d s => addLoose c d s.1 s.2) d).bare =
        ss.foldl (fun d s => addLoose c d s.1 s.2) d.bare := by
    intro ss d
    exact (List.foldl_hom Draft.bare fun d s => (bare_addLoose c d s.1 s.2).symm).symm
  have hdrawing : (drawing c sheets states).bare = drawing c (sheets.map Sheet.bare) states := by
    rw [drawing, hstates, hsheets, drawing, List.zipIdx_map, List.foldl_map]
    rfl
  exact congrArg (fun d : Draft => (⟨d.nodes, d.edges⟩ : Graph)) hdrawing

end Layout

namespace Outline

lemma sheetUnder_shown_false (o : Outline) (a : AgentDecl) :
    (o.shown false).sheetUnder (a.shown false) = (o.sheetUnder a).bare := by
  have htools : (o.shown false).toolsUnder a.name =
      (o.toolsUnder a.name).map (ToolDecl.shown false) := by
    rw [toolsUnder, shown, List.filter_map]
    rfl
  have hevents : (o.shown false).eventsUnder a.name =
      (o.eventsUnder a.name).map EventDecl.unplaced := o.eventsUnder_unplaced a.name
  have hstate : (o.shown false).stateUnder? a.name =
      (o.stateUnder? a.name).map StateDecl.unplaced := o.stateUnder?_unplaced a.name
  have hname : (a.shown false).name = a.name := rfl
  rw [sheetUnder, hname, htools, hevents, hstate, List.map_map, List.map_map, Option.map_map,
    Sheet.bare, sheetUnder, List.map_map]
  rfl

/-- What was looked up does not count for the rest of a layout. -/
lemma layout_shown_false (o : Outline) : layout (o.shown false) = (layout o).bare := by
  have hsheets : (o.shown false).sheets = o.sheets.map Sheet.bare := by
    have hagents : (o.shown false).agents = o.agents.map (·.shown false) := rfl
    rw [sheets, hagents, Layout.placedAgents_map (f := AgentDecl.shown false) fun _ => rfl,
      List.map_map, sheets, List.map_map]
    exact List.map_congr_left fun a _ => sheetUnder_shown_false o a
  have htypes : (o.shown false).typeStates = o.typeStates := o.typeStates_unplaced
  rw [layout, layout, Layout.layoutOn_eq_draw, Layout.layoutOn_eq_draw, Layout.bare_draw, hsheets,
    htypes]

lemma layout_shown_true (o : Outline) : layout (o.shown true) = layout o := by
  rw [shown_true, layout, layout, Layout.layoutOn_eq_draw, Layout.layoutOn_eq_draw, sheets_unplaced,
    typeStates_unplaced]

end Outline

/-! ## Equivalent scripts -/

/-- **Equivalent scripts have the same graph**, up to what is looked up, where both or neither begin
with a byte order mark; and entirely the same graph if their lookaheads read the same lines. -/
theorem layout_of_equivalent {a b : String} (h : equivalent a b = true)
    (hmark : isMarked a = isMarked b) :
    (layout (outline a)).bare = (layout (outline b)).bare ∧
      (lookaheads (scriptLines a) = lookaheads (scriptLines b) →
        layout (outline a) = layout (outline b)) := by
  constructor
  · have hshown : (outline a).shown false = (outline b).shown false :=
      shown_outline_of_equivalent h hmark fun hlook => by cases hlook
    rw [← Outline.layout_shown_false, hshown, Outline.layout_shown_false]
  · intro hlook
    have hshown : (outline a).shown true = (outline b).shown true :=
      shown_outline_of_equivalent h hmark fun _ => hlook
    rw [← Outline.layout_shown_true, hshown, Outline.layout_shown_true]

/-- A script whose description is written right behind the header. -/
def nearText : String := "agent A \x7b\n  description: \"x\"\n\x7d\n"

/-- The same with a blank line behind the header. -/
def spacedText : String := "agent A \x7b\n\ndescription: \"x\" \n\x7d\n"

/-- The same with blank lines as far as the lookahead reaches. -/
def farText : String :=
  "agent A \x7b\n" ++ String.ofList (List.replicate agentReach '\n') ++
    "  description: \"x\"\n\x7d\n"

/-- A script behind a byte order mark. -/
def markedText : String := "\uFEFFagent A \x7b\n\x7d\n"

/-- The same behind an empty line. -/
def lateMarkedText : String := "\n\uFEFFagent A \x7b\n\x7d\n"

/-- One blank line leaves the description in reach. -/
theorem layout_of_equivalent_spacedText :
    equivalent nearText spacedText = true ∧ isMarked nearText = isMarked spacedText ∧
      lookaheads (scriptLines nearText) = lookaheads (scriptLines spacedText) ∧
      (layout (outline nearText)).bare = (layout (outline spacedText)).bare ∧
      layout (outline nearText) = layout (outline spacedText) :=
  have hequivalent : equivalent nearText spacedText = true := by decide +kernel
  have hmark : isMarked nearText = isMarked spacedText := by decide +kernel
  have hlook : lookaheads (scriptLines nearText) = lookaheads (scriptLines spacedText) := by
    decide +kernel
  ⟨hequivalent, hmark, hlook, (layout_of_equivalent hequivalent hmark).1,
    (layout_of_equivalent hequivalent hmark).2 hlook⟩

/-- Neither condition can be dropped. -/
theorem layout_ne_of_equivalent :
    (equivalent farText nearText = true ∧
        layout (outline farText) ≠ layout (outline nearText)) ∧
      equivalent lateMarkedText markedText = true ∧
        layout (outline lateMarkedText) ≠ layout (outline markedText) := by
  have hcontents : ∀ {g g' : Graph}, g.nodes.map (·.content) ≠ g'.nodes.map (·.content) →
      g ≠ g' := by
    rintro g g' hne rfl
    exact hne rfl
  refine ⟨⟨by decide +kernel, hcontents ?_⟩, by decide +kernel, hcontents ?_⟩
  · decide +kernel
  · decide +kernel

end AgentScript
