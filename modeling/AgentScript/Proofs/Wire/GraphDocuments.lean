import AgentScript.Proofs.Json.Records
import AgentScript.Wire.Graph

/-!
# Graph documents come back

A graph whose coordinates are written as numbers comes back from its document as it was, but for the
coordinates: each is what is read where it was written (`readGraph_graphDocument`).  Spaces after the
document, such as a line end, change nothing.

The content of a node takes a detour.  Which record it is depends on the type of the node, so it is
read as a plain value, whose members stand in the order of their keys and not in the order they were
written in; what is decoded is that value (`decodeContent?_arranged`).
-/

namespace AgentScript

open AgentScript.Json

/-- The position that is read where a position was written. -/
def Position.reread (p : Position) : Position where
  x := (readBack p.x).getD p.x
  y := (readBack p.y).getD p.y

def Node.reread (n : Node) : Node := { n with position := n.position.reread }

def Graph.reread (g : Graph) : Graph := { g with nodes := g.nodes.map Node.reread }

/-- The coordinates of the nodes. -/
def Graph.coordinates (g : Graph) : List Float :=
  g.nodes.flatMap fun n => [n.position.x, n.position.y]

lemma Graph.forall_mem_coordinates {g : Graph} {P : Float → Prop} :
    (∀ x ∈ g.coordinates, P x) ↔ ∀ n ∈ g.nodes, P n.position.x ∧ P n.position.y := by
  rw [coordinates, List.forall_mem_flatMap]
  simp

/-- Both coordinates are written as numbers and read as numbers. -/
def Position.Legible (p : Position) : Prop := (readBack p.x).isSome ∧ (readBack p.y).isSome

namespace Wire

/-! ## Edges and positions -/

@[simp]
lemma decodeOption_string_draft (s : String) :
    decodeOption decodeString (Value.string s).draft = .ok (some s) := by
  refine decodeOption_some ?_ (decodeString_draft s)
  rw [Value.view_draft_string]
  exact nofun

lemma foldMembers_edge (e : Edge) :
    foldMembers setEdge .closed {} (shown Value.draft (given
      [("id", text e.id), ("source", text e.source), ("target", text e.target),
        ("sourceHandle", optionalText e.sourceHandle),
        ("targetHandle", optionalText e.targetHandle)])) =
      .ok ⟨some e.id, some e.source, some e.target, e.sourceHandle.map some,
        e.targetHandle.map some⟩ := by
  simp only [text, foldMembers_given, setEdge, fill_none, decodeString_draft, map_ok, ok_bind,
    pure_eq_ok]
  refine (foldMembers_optional e.sourceHandle .string (fun o =>
    (⟨some e.id, some e.source, some e.target, o.map some, none⟩ : PartialEdge))
    (by simp [setEdge]) _).trans ?_
  refine (foldMembers_optional e.targetHandle .string (fun o =>
    (⟨some e.id, some e.source, some e.target, e.sourceHandle.map some, o.map some⟩ : PartialEdge))
    (by simp [setEdge]) _).trans ?_
  exact foldMembers_given_nil

theorem decodeEdge_encodeEdge (e : Edge) : decodeEdge (encodeEdge e).draft = .ok e := by
  rw [decodeEdge, encodeEdge, present, ← given, decodeRecord_draft]
  simp [edgeShape, foldMembers_edge]

theorem decodePosition_encodePosition {p : Position} (h : p.Legible) :
    decodePosition (encodePosition p).draft = .ok p.reread := by
  obtain ⟨x, hx⟩ := Option.isSome_iff_exists.1 h.1
  obtain ⟨y, hy⟩ := Option.isSome_iff_exists.1 h.2
  have hreread : p.reread = ⟨x, y⟩ := by rw [Position.reread, hx, hy]; rfl
  rw [decodePosition, encodePosition, decodeRecord_draft, hreread]
  simp [positionShape, setPosition, decodeFloat_draft hx, decodeFloat_draft hy]

/-! ## Contents -/

@[simp]
lemma decodeString_value (s : String) : decodeString (Value.string s) = .ok s := rfl

@[simp]
lemma decodeOption_string_value (s : String) :
    decodeOption decodeString (Value.string s) = .ok (some s) := rfl

lemma decodeList_strings (fs : List String) :
    decodeList decodeString (Value.array (fs.map .string)) = .ok fs := by
  have hitems : decodeItems decodeString ((fs.map Value.string).map id) = .ok (fs.map id) :=
    decodeItems_map fun s _ => decodeString_value s
  rw [List.map_id, List.map_id] at hitems
  simp only [decodeList, look, Source.view, Decoded.ofFault, ok_bind, hitems]
  rfl

@[simp]
lemma decodeOption_strings (fs : List String) :
    decodeOption (decodeList decodeString) (Value.array (fs.map .string)) = .ok (some fs) :=
  decodeOption_some nofun (decodeList_strings fs)

@[simp]
lemma decodeOption_variant (c : EventClass) :
    decodeOption (Value.decodeVariant eventVariants) (Value.string c.name) = .ok (some c) := by
  cases c <;> rfl

/-- The members of a content in the order of their keys. -/
def orderedMembers : Content → List (String × Option Value)
  | .agent d =>
    [("description", optionalText d.description), ("label", text d.label),
      ("model", optionalText d.model), ("provider", optionalText d.provider),
      ("version", optionalText d.version)]
  | .tool d =>
    [("description", optionalText d.description), ("label", text d.label),
      ("params", optionalText d.params), ("returns", optionalText d.returns)]
  | .event d =>
    [("eventType", optionalText (d.eventClass.map EventClass.name)), ("label", text d.label)]
  | .state d =>
    [("fields", d.fields.map fun fs => .array (fs.map .string)), ("label", text d.label)]

lemma foldMembers_agent (d : AgentContent) :
    foldMembers setAgent .closed {} (shown id (given (orderedMembers (.agent d)))) =
      .ok ⟨some d.label, d.description.map some, d.version.map some, d.model.map some,
        d.provider.map some⟩ := by
  refine (foldMembers_optional d.description .string (fun o =>
    (⟨none, o.map some, none, none, none⟩ : PartialAgent)) (by simp [setAgent]) _).trans ?_
  simp only [text, foldMembers_given, setAgent, fill_none, id, decodeString_value, map_ok, ok_bind,
    pure_eq_ok]
  refine (foldMembers_optional d.model .string (fun o =>
    (⟨some d.label, d.description.map some, none, o.map some, none⟩ : PartialAgent))
    (by simp [setAgent]) _).trans ?_
  refine (foldMembers_optional d.provider .string (fun o =>
    (⟨some d.label, d.description.map some, none, d.model.map some, o.map some⟩ : PartialAgent))
    (by simp [setAgent]) _).trans ?_
  refine (foldMembers_optional d.version .string (fun o =>
    (⟨some d.label, d.description.map some, o.map some, d.model.map some, d.provider.map some⟩ :
      PartialAgent)) (by simp [setAgent]) _).trans ?_
  exact foldMembers_given_nil

lemma foldMembers_tool (d : ToolContent) :
    foldMembers setTool .closed {} (shown id (given (orderedMembers (.tool d)))) =
      .ok ⟨some d.label, d.params.map some, d.returns.map some, d.description.map some⟩ := by
  refine (foldMembers_optional d.description .string (fun o =>
    (⟨none, none, none, o.map some⟩ : PartialTool)) (by simp [setTool]) _).trans ?_
  simp only [text, foldMembers_given, setTool, fill_none, id, decodeString_value, map_ok, ok_bind,
    pure_eq_ok]
  refine (foldMembers_optional d.params .string (fun o =>
    (⟨some d.label, o.map some, none, d.description.map some⟩ : PartialTool))
    (by simp [setTool]) _).trans ?_
  refine (foldMembers_optional d.returns .string (fun o =>
    (⟨some d.label, d.params.map some, o.map some, d.description.map some⟩ : PartialTool))
    (by simp [setTool]) _).trans ?_
  exact foldMembers_given_nil

lemma foldMembers_event (d : EventContent) :
    foldMembers setEvent .closed {} (shown id (given (orderedMembers (.event d)))) =
      .ok ⟨some d.label, d.eventClass.map some⟩ := by
  rw [orderedMembers, optionalText, Option.map_map]
  refine (foldMembers_optional d.eventClass (Value.string ∘ EventClass.name) (fun o =>
    (⟨none, o.map some⟩ : PartialEvent)) (by simp [setEvent]) _).trans ?_
  simp [text, setEvent]

lemma foldMembers_state (d : StateContent) :
    foldMembers setState .closed {} (shown id (given (orderedMembers (.state d)))) =
      .ok ⟨some d.label, d.fields.map some⟩ := by
  refine (foldMembers_optional d.fields (fun fs => .array (fs.map .string)) (fun o =>
    (⟨none, o.map some⟩ : PartialState)) (by simp [setState]) _).trans ?_
  simp [text, setState]

/-- A content is decoded from its members in the order of their keys. -/
theorem decodeContent?_arranged (c : Content) :
    decodeContent? c.kind.name (.object (given (orderedMembers c))) = some (.ok c) := by
  cases c with
  | agent d =>
    rw [Content.kind, NodeKind.name, decodeContent?, decodeRecord_value]
    simp [agentShape, foldMembers_agent]
  | tool d =>
    rw [Content.kind, NodeKind.name, decodeContent?, decodeRecord_value]
    simp [toolShape, foldMembers_tool]
  | event d =>
    rw [Content.kind, NodeKind.name, decodeContent?, decodeRecord_value]
    simp [eventShape, foldMembers_event]
  | state d =>
    rw [Content.kind, NodeKind.name, decodeContent?, decodeRecord_value]
    simp [stateShape, foldMembers_state]

/-! ## Contents as plain values -/

lemma toValue_string (depth : Nat) (s : String) :
    (Value.string s).draft.toValue depth = .ok (.string s) := by
  rw [Value.draft, Draft.toValue, value_printedText]
  rfl

lemma toValues_map {depth : Nat} {vs : List Value} (h : ∀ v ∈ vs, v.draft.toValue depth = .ok v) :
    Draft.toValues depth (vs.map Value.draft) = .ok vs := by
  induction vs with
  | nil => rw [List.map_nil, Draft.toValues]
  | cons v vs ih =>
    rw [List.forall_mem_cons] at h
    rw [List.map_cons, Draft.toValues, h.1, ok_bind, ih h.2]
    rfl

lemma toValue_array {depth : Nat} {vs : List Value} (h : ∀ v ∈ vs, v.draft.toValue depth = .ok v) :
    (Value.array vs).draft.toValue (depth + 1) = .ok (.array vs) := by
  rw [Value.draft, Value.itemDrafts_eq, Draft.toValue, toValues_map h]
  rfl

lemma toMembers_memberDrafts {depth : Nat} {ms : List (String × Value)}
    (h : ∀ m ∈ ms, m.2.draft.toValue depth = .ok m.2) :
    Draft.toMembers depth (Value.memberDrafts ms) = .ok ms := by
  induction ms with
  | nil => rw [Value.memberDrafts, Draft.toMembers]
  | cons m ms ih =>
    rw [List.forall_mem_cons] at h
    rw [Value.memberDrafts, Draft.toMembers, value_printedText, ok_bind, h.1, ok_bind, ih h.2]
    rfl

lemma toValue_object {depth : Nat} {ms : List (String × Value)}
    (h : ∀ m ∈ ms, m.2.draft.toValue depth = .ok m.2) :
    (Value.object ms).draft.toValue (depth + 1) = .ok (.object (arrange ms)) := by
  rw [Value.draft, Draft.toValue, toMembers_memberDrafts h]
  rfl

/-- The members of a content in the order in which they are written. -/
def writtenMembers : Content → List (String × Option Value)
  | .agent d =>
    [("label", text d.label), ("description", optionalText d.description),
      ("version", optionalText d.version), ("model", optionalText d.model),
      ("provider", optionalText d.provider)]
  | .tool d =>
    [("label", text d.label), ("params", optionalText d.params),
      ("returns", optionalText d.returns), ("description", optionalText d.description)]
  | .event d =>
    [("label", text d.label), ("eventType", optionalText (d.eventClass.map EventClass.name))]
  | .state d =>
    [("label", text d.label), ("fields", d.fields.map fun fs => .array (fs.map .string))]

lemma encodeContent_eq (c : Content) : encodeContent c = .object (given (writtenMembers c)) := by
  cases c <;> rfl

lemma perm_orderedMembers (c : Content) : (writtenMembers c).Perm (orderedMembers c) := by
  cases c with
  | agent d =>
    refine .trans (.swap _ _ _) (.cons _ (.cons _ ?_))
    exact (List.perm_append_singleton _ [_, _]).symm
  | tool d => exact List.perm_append_singleton _ [_, _, _]
  | event d => exact .swap _ _ _
  | state d => exact .swap _ _ _

lemma pairwise_orderedMembers (c : Content) :
    ((orderedMembers c).map (·.1)).Pairwise (· < ·) := by
  cases c with
  | agent d =>
    change ["description", "label", "model", "provider", "version"].Pairwise (· < ·)
    decide
  | tool d =>
    change ["description", "label", "params", "returns"].Pairwise (· < ·)
    decide
  | event d =>
    change ["eventType", "label"].Pairwise (· < ·)
    decide
  | state d =>
    change ["fields", "label"].Pairwise (· < ·)
    decide

lemma arrange_writtenMembers (c : Content) :
    arrange (given (writtenMembers c)) = given (orderedMembers c) :=
  arrange_given (perm_orderedMembers c) (pairwise_orderedMembers c)

/-- A string or a list of strings. -/
def IsFlat (v : Value) : Prop := (∃ s, v = .string s) ∨ ∃ fs : List String, v = .array (fs.map .string)

lemma IsFlat.readable {v : Value} (h : IsFlat v) : v.Readable := by
  obtain ⟨s, rfl⟩ | ⟨fs, rfl⟩ := h <;> simp

lemma IsFlat.toValue_draft {v : Value} (h : IsFlat v) (depth : Nat) :
    v.draft.toValue (depth + 1) = .ok v := by
  obtain ⟨s, rfl⟩ | ⟨fs, rfl⟩ := h
  · exact toValue_string (depth + 1) s
  · apply toValue_array
    intro v hv
    obtain ⟨s, -, rfl⟩ := List.mem_map.1 hv
    exact toValue_string depth s

lemma isFlat_of_mem_writtenMembers {c : Content} {m : String × Value}
    (h : m ∈ given (writtenMembers c)) : IsFlat m.2 := by
  refine forall_mem_given (P := IsFlat) ?_ m h
  cases c <;> simp [writtenMembers, text, optionalText, IsFlat]

lemma readable_encodeContent (c : Content) : (encodeContent c).Readable := by
  rw [encodeContent_eq, Value.readable_object]
  exact fun m hm => (isFlat_of_mem_writtenMembers hm).readable

/-- A content is read as the plain value with its members in order. -/
lemma decodePlain_encodeContent (c : Content) :
    decodePlain (encodeContent c).draft = .ok (.object (given (orderedMembers c))) := by
  have hvalue : (encodeContent c).draft.toValue (depthLimit - 3) =
      .ok (.object (given (orderedMembers c))) := by
    rw [encodeContent_eq, ← arrange_writtenMembers]
    exact toValue_object fun m hm => (isFlat_of_mem_writtenMembers hm).toValue_draft 122
  rw [decodePlain, hvalue]
  rfl

/-! ## Nodes and graphs -/

theorem decodeNode_encodeNode {n : Node} (h : n.position.Legible) :
    decodeNode (encodeNode n).draft = .ok n.reread := by
  have hraw : decodeRecord nodeShape (encodeNode n).draft =
      .ok ⟨n.id, n.kind.name, n.position.reread, .object (given (orderedMembers n.content))⟩ := by
    rw [encodeNode, decodeRecord_draft]
    simp [nodeShape, setNode, decodePosition_encodePosition h, decodePlain_encodeContent]
  rw [decodeNode, hraw, ok_bind, RawNode.resolve, Node.kind, decodeContent?_arranged]
  rfl

lemma readable_encodeNode {n : Node} (h : n.position.Legible) : (encodeNode n).Readable := by
  simp [encodeNode, encodePosition, readable_of_readBack h.1, readable_of_readBack h.2,
    readable_encodeContent]

lemma readable_encodeEdge (e : Edge) : (encodeEdge e).Readable := by
  rw [encodeEdge, present, ← given, Value.readable_object]
  apply forall_mem_given
  simp [text, optionalText]

theorem decodeRecord_encodeGraph {g : Graph} (h : ∀ n ∈ g.nodes, n.position.Legible) :
    decodeRecord graphShape (encodeGraph g).draft = .ok g.reread := by
  have hnodes := decodeList_draft fun n hn => decodeNode_encodeNode (h n hn)
  have hedges : decodeList decodeEdge (Value.array (g.edges.map encodeEdge)).draft =
      .ok (g.edges.map id) := decodeList_draft fun e _ => decodeEdge_encodeEdge e
  rw [List.map_id] at hedges
  rw [encodeGraph, decodeRecord_draft]
  simp [graphShape, setGraph, hnodes, hedges, Graph.reread]

/-- A graph whose coordinates are read as numbers comes back from its document, with the coordinates
that are read. -/
theorem readGraph_graphDocument {g : Graph} (hg : ∀ x ∈ g.coordinates, (readBack x).isSome)
    {tail : String} (hends : EndsNumber tail.toList) (hspaces : tokens tail.toList = []) :
    readGraph (graphDocument g ++ tail) = .ok g.reread := by
  have h : ∀ n ∈ g.nodes, n.position.Legible := Graph.forall_mem_coordinates.1 hg
  have hreadable : (encodeGraph g).Readable := by
    simp only [encodeGraph, Value.readable_object, Value.readable_array, List.forall_mem_cons,
      List.forall_mem_map]
    refine ⟨fun n hn => readable_encodeNode (h n hn), fun e _ => readable_encodeEdge e, ?_⟩
    exact List.forall_mem_nil _
  rw [readGraph, graphDocument, decodeText_pretty _ hreadable hends hspaces,
    decodeRecord_encodeGraph h]

end Wire

end AgentScript
