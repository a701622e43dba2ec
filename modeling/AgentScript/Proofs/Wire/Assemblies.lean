import AgentScript.Proofs.Json.Rearranging
import AgentScript.Wire.Graph

/-!
# Of which fields the records of a graph are made

Each record of a graph document is an `Assembly`: what its setter does with a key is to put the value
into the field of that name, and the fields are independent.  Everything that holds of the members of
an object is thereby proved once for all of them.

The decoders are strict, so a document from which a graph is read spells a tree, and the graph is
decoded from the tree (`readGraph_eq_ok`).
-/

namespace AgentScript.Wire

open AgentScript.Json

section Records

variable {σ : Type} [Source σ]

/-! ## Positions and edges -/

def positionFields : List (Field σ PartialPosition) :=
  [{ name := "x", get := (·.x), put := fun p o => { p with x := o }, decode := decodeFloat },
    { name := "y", get := (·.y), put := fun p o => { p with y := o }, decode := decodeFloat }]

lemma setPosition_eq : @setPosition σ _ = setFields positionFields := by
  funext p key s
  unfold setPosition
  split
  · rfl
  · rfl
  · exact (setFields_eq_passOver (by simp_all [positionFields])).symm

def positionAssembly : Assembly (@positionShape σ _) where
  fields := positionFields
  independent := by simp [positionFields, Field.independent_iff]
  empty := {}
  finish p := do return ⟨← require "x" p.x, ← require "y" p.y⟩
  ofMembers_eq ms ending := by
    rw [← setPosition_eq]
    rfl

def edgeFields : List (Field σ PartialEdge) :=
  [{ name := "id", get := (·.id), put := fun p o => { p with id := o }, decode := decodeString },
    { name := "source", get := (·.source), put := fun p o => { p with source := o },
      decode := decodeString },
    { name := "target", get := (·.target), put := fun p o => { p with target := o },
      decode := decodeString },
    { name := "sourceHandle", get := (·.sourceHandle),
      put := fun p o => { p with sourceHandle := o }, decode := decodeOption decodeString },
    { name := "targetHandle", get := (·.targetHandle),
      put := fun p o => { p with targetHandle := o }, decode := decodeOption decodeString }]

lemma setEdge_eq : @setEdge σ _ = setFields edgeFields := by
  funext p key s
  unfold setEdge
  split
  · rfl
  · rfl
  · rfl
  · rfl
  · rfl
  · exact (setFields_eq_passOver (by simp_all [edgeFields])).symm

def edgeAssembly : Assembly (@edgeShape σ _) where
  fields := edgeFields
  independent := by simp [edgeFields, Field.independent_iff]
  empty := {}
  finish p := do
    return ⟨← require "id" p.id, ← require "source" p.source, ← require "target" p.target,
      p.sourceHandle.getD none, p.targetHandle.getD none⟩
  ofMembers_eq ms ending := by
    rw [← setEdge_eq]
    rfl

/-! ## Data of nodes -/

def agentFields : List (Field σ PartialAgent) :=
  [{ name := "label", get := (·.label), put := fun p o => { p with label := o },
      decode := decodeString },
    { name := "description", get := (·.description), put := fun p o => { p with description := o },
      decode := decodeOption decodeString },
    { name := "version", get := (·.version), put := fun p o => { p with version := o },
      decode := decodeOption decodeString },
    { name := "model", get := (·.model), put := fun p o => { p with model := o },
      decode := decodeOption decodeString },
    { name := "provider", get := (·.provider), put := fun p o => { p with provider := o },
      decode := decodeOption decodeString }]

lemma setAgent_eq : @setAgent σ _ = setFields agentFields := by
  funext p key s
  unfold setAgent
  split
  · rfl
  · rfl
  · rfl
  · rfl
  · rfl
  · exact (setFields_eq_passOver (by simp_all [agentFields])).symm

def agentAssembly : Assembly (@agentShape σ _) where
  fields := agentFields
  independent := by simp [agentFields, Field.independent_iff]
  empty := {}
  finish p := do
    return ⟨← require "label" p.label, p.description.getD none, p.version.getD none,
      p.model.getD none, p.provider.getD none⟩
  ofMembers_eq ms ending := by
    rw [← setAgent_eq]
    rfl

def toolFields : List (Field σ PartialTool) :=
  [{ name := "label", get := (·.label), put := fun p o => { p with label := o },
      decode := decodeString },
    { name := "params", get := (·.params), put := fun p o => { p with params := o },
      decode := decodeOption decodeString },
    { name := "returns", get := (·.returns), put := fun p o => { p with returns := o },
      decode := decodeOption decodeString },
    { name := "description", get := (·.description), put := fun p o => { p with description := o },
      decode := decodeOption decodeString }]

lemma setTool_eq : @setTool σ _ = setFields toolFields := by
  funext p key s
  unfold setTool
  split
  · rfl
  · rfl
  · rfl
  · rfl
  · exact (setFields_eq_passOver (by simp_all [toolFields])).symm

def toolAssembly : Assembly (@toolShape σ _) where
  fields := toolFields
  independent := by simp [toolFields, Field.independent_iff]
  empty := {}
  finish p := do
    return ⟨← require "label" p.label, p.params.getD none, p.returns.getD none,
      p.description.getD none⟩
  ofMembers_eq ms ending := by
    rw [← setTool_eq]
    rfl

def eventFields : List (Field Value PartialEvent) :=
  [{ name := "label", get := (·.label), put := fun p o => { p with label := o },
      decode := decodeString },
    { name := "eventType", get := (·.eventClass), put := fun p o => { p with eventClass := o },
      decode := decodeOption (Value.decodeVariant eventVariants) }]

lemma setEvent_eq : setEvent = setFields eventFields := by
  funext p key s
  unfold setEvent
  split
  · rfl
  · rfl
  · exact (setFields_eq_passOver (by simp_all [eventFields])).symm

def eventAssembly : Assembly eventShape where
  fields := eventFields
  independent := by simp [eventFields, Field.independent_iff]
  empty := {}
  finish p := do return ⟨← require "label" p.label, p.eventClass.getD none⟩
  ofMembers_eq ms ending := by
    rw [← setEvent_eq]
    rfl

def stateFields : List (Field σ PartialState) :=
  [{ name := "label", get := (·.label), put := fun p o => { p with label := o },
      decode := decodeString },
    { name := "fields", get := (·.fields), put := fun p o => { p with fields := o },
      decode := decodeOption (decodeList decodeString) }]

lemma setState_eq : @setState σ _ = setFields stateFields := by
  funext p key s
  unfold setState
  split
  · rfl
  · rfl
  · exact (setFields_eq_passOver (by simp_all [stateFields])).symm

def stateAssembly : Assembly (@stateShape σ _) where
  fields := stateFields
  independent := by simp [stateFields, Field.independent_iff]
  empty := {}
  finish p := do return ⟨← require "label" p.label, p.fields.getD none⟩
  ofMembers_eq ms ending := by
    rw [← setState_eq]
    rfl

/-! ## Nodes and graphs -/

def nodeFields : List (Field Draft PartialNode) :=
  [{ name := "id", get := (·.id), put := fun p o => { p with id := o }, decode := decodeString },
    { name := "type", get := (·.kind), put := fun p o => { p with kind := o },
      decode := decodeString },
    { name := "position", get := (·.position), put := fun p o => { p with position := o },
      decode := decodePosition },
    { name := "data", get := (·.data), put := fun p o => { p with data := o },
      decode := decodePlain }]

lemma setNode_eq : setNode = setFields nodeFields := by
  funext p key s
  unfold setNode
  split
  · rfl
  · rfl
  · rfl
  · rfl
  · exact (setFields_eq_passOver (by simp_all [nodeFields])).symm

def nodeAssembly : Assembly nodeShape where
  fields := nodeFields
  independent := by simp [nodeFields, Field.independent_iff]
  empty := {}
  finish p := do
    return ⟨← require "id" p.id, ← require "type" p.kind, p.position.getD origin, p.data.getD .null⟩
  ofMembers_eq ms ending := by
    rw [← setNode_eq]
    rfl

def graphFields : List (Field Draft PartialGraph) :=
  [{ name := "nodes", get := (·.nodes), put := fun p o => { p with nodes := o },
      decode := decodeList decodeNode },
    { name := "edges", get := (·.edges), put := fun p o => { p with edges := o },
      decode := decodeList decodeEdge }]

lemma setGraph_eq : setGraph = setFields graphFields := by
  funext p key s
  unfold setGraph
  split
  · rfl
  · rfl
  · exact (setFields_eq_passOver (by simp_all [graphFields])).symm

def graphAssembly : Assembly graphShape where
  fields := graphFields
  independent := by simp [graphFields, Field.independent_iff]
  empty := {}
  finish p := do return ⟨← require "nodes" p.nodes, ← require "edges" p.edges⟩
  ofMembers_eq ms ending := by
    rw [← setGraph_eq]
    rfl

end Records

/-! ## Only JSON is decoded -/

lemma strict_decodePosition : Strict decodePosition := by
  refine strict_decodeRecord positionAssembly ?_ ?_
  · change ∀ f ∈ positionFields, Strict f.decode
    simp [positionFields, strict_decodeFloat]
  · exact (takes_nextField strict_decodeFloat).bind fun _ =>
      (takes_nextField strict_decodeFloat).bind fun _ => .pure _

lemma strict_decodeEdge : Strict decodeEdge := by
  have hname := strict_decodeString
  have hhandle := strict_decodeOption strict_decodeString
  refine strict_decodeRecord edgeAssembly ?_ ?_
  · change ∀ f ∈ edgeFields, Strict f.decode
    simp [edgeFields, hname, hhandle]
  · exact (takes_nextField hname).bind fun _ => (takes_nextField hname).bind fun _ =>
      (takes_nextField hname).bind fun _ => (takes_nextField hhandle).bind fun _ =>
        (takes_nextField hhandle).bind fun _ => .pure _

lemma strict_decodePlain : Strict decodePlain := fun d v h =>
  d.whole_of_toValue _ v (ofFault_eq_ok.1 h)

lemma strict_decodeNode : Strict decodeNode := by
  intro d n h
  obtain ⟨raw, hraw, -⟩ := exists_of_bind_eq_ok h
  refine strict_decodeRecord nodeAssembly ?_ ?_ d raw hraw
  · change ∀ f ∈ nodeFields, Strict f.decode
    simp [nodeFields, strict_decodeString, strict_decodePosition, strict_decodePlain]
  · exact (takes_nextField strict_decodeString).bind fun _ =>
      (takes_nextField strict_decodeString).bind fun _ =>
        (takes_nextField strict_decodePosition).bind fun _ =>
          (takes_nextField strict_decodePlain).bind fun _ => .pure _

lemma strict_decodeGraph : Strict (decodeRecord graphShape) := by
  have hnodes := strict_decodeList strict_decodeNode
  have hedges := strict_decodeList strict_decodeEdge
  refine strict_decodeRecord graphAssembly ?_ ?_
  · change ∀ f ∈ graphFields, Strict f.decode
    simp [graphFields, hnodes, hedges]
  · exact (takes_nextField hnodes).bind fun _ => (takes_nextField hedges).bind fun _ => .pure _

/-- A graph is read from a document exactly if the document spells a tree and the graph is decoded
from the tree. -/
theorem readGraph_eq_ok {document : String} {g : Graph} : readGraph document = .ok g ↔
    ∃ d, Spells document.toList d ∧ decodeRecord graphShape d = .ok g :=
  decodeText_eq_ok strict_decodeGraph

end AgentScript.Wire
