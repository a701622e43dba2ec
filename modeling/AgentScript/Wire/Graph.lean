import AgentScript.Graph.Basic
import AgentScript.Json.Decode
import AgentScript.Json.Print

/-!
# Graph documents

A graph travels between the editor and everything else as a JSON document: an object with the
nodes and the edges.  The kind of a node decides which record its `data` holds, so `data` is read as
a plain value first and decoded when the whole node is known.  A node without `position` stands at
the origin, and optional fields that are not there are left out of the document.
-/

namespace AgentScript.Wire

open AgentScript.Json

/-! ## Encoding -/

/-- The members of an object, those without a value left out. -/
def present (members : List (String × Option Value)) : Value :=
  .object (members.filterMap fun m => m.2.map (m.1, ·))

def text (s : String) : Option Value := some (.string s)

def optionalText (s : Option String) : Option Value := s.map .string

def encodePosition (p : Position) : Value :=
  .object [("x", .number (.real p.x)), ("y", .number (.real p.y))]

def encodeContent : Content → Value
  | .agent d => present
    [("label", text d.label), ("description", optionalText d.description),
      ("version", optionalText d.version), ("model", optionalText d.model),
      ("provider", optionalText d.provider)]
  | .tool d => present
    [("label", text d.label), ("params", optionalText d.params),
      ("returns", optionalText d.returns), ("description", optionalText d.description)]
  | .event d => present
    [("label", text d.label), ("eventType", optionalText (d.eventClass.map EventClass.name))]
  | .state d => present
    [("label", text d.label), ("fields", d.fields.map fun fs => .array (fs.map .string))]

def encodeNode (n : Node) : Value :=
  .object [("id", .string n.id), ("type", .string n.kind.name),
    ("position", encodePosition n.position), ("data", encodeContent n.content)]

def encodeEdge (e : Edge) : Value := present
  [("id", text e.id), ("source", text e.source), ("target", text e.target),
    ("sourceHandle", optionalText e.sourceHandle), ("targetHandle", optionalText e.targetHandle)]

def encodeGraph (g : Graph) : Value :=
  .object [("nodes", .array (g.nodes.map encodeNode)), ("edges", .array (g.edges.map encodeEdge))]

/-- The document of a graph. -/
def graphDocument (g : Graph) : String := (encodeGraph g).pretty

/-! ## Decoding -/

section Records

variable {σ : Type} [Source σ]

/-- A position of which some coordinates are known. -/
structure PartialPosition where
  x : Option Float := none
  y : Option Float := none

def setPosition (p : PartialPosition) (key : String) (s : σ) : Decoded PartialPosition :=
  match key with
  | "x" => do return { p with x := ← fill "x" p.x decodeFloat s }
  | "y" => do return { p with y := ← fill "y" p.y decodeFloat s }
  | _ => passOver p s

def positionShape : RecordShape σ Position where
  name := "Position"
  fields := 2
  ofMembers members ending := do
    let p ← foldMembers setPosition ending {} members
    return ⟨← require "x" p.x, ← require "y" p.y⟩
  ofItems := do
    return ⟨← nextField none decodeFloat, ← nextField none decodeFloat⟩

def decodePosition (s : σ) : Decoded Position := decodeRecord positionShape s

/-- The data of an agent of which some fields are known. -/
structure PartialAgent where
  label : Option String := none
  description : Option (Option String) := none
  version : Option (Option String) := none
  model : Option (Option String) := none
  provider : Option (Option String) := none

def setAgent (a : PartialAgent) (key : String) (s : σ) : Decoded PartialAgent :=
  match key with
  | "label" => do return { a with label := ← fill key a.label decodeString s }
  | "description" => do
    return { a with description := ← fill key a.description (decodeOption decodeString) s }
  | "version" => do return { a with version := ← fill key a.version (decodeOption decodeString) s }
  | "model" => do return { a with model := ← fill key a.model (decodeOption decodeString) s }
  | "provider" => do
    return { a with provider := ← fill key a.provider (decodeOption decodeString) s }
  | _ => passOver a s

def agentShape : RecordShape σ AgentContent where
  name := "AgentData"
  fields := 5
  ofMembers members ending := do
    let a ← foldMembers setAgent ending {} members
    return ⟨← require "label" a.label, a.description.getD none, a.version.getD none,
      a.model.getD none, a.provider.getD none⟩
  ofItems := do
    return ⟨← nextField none decodeString, ← nextField (some none) (decodeOption decodeString),
      ← nextField (some none) (decodeOption decodeString),
      ← nextField (some none) (decodeOption decodeString),
      ← nextField (some none) (decodeOption decodeString)⟩

/-- The data of a tool of which some fields are known. -/
structure PartialTool where
  label : Option String := none
  params : Option (Option String) := none
  returns : Option (Option String) := none
  description : Option (Option String) := none

def setTool (t : PartialTool) (key : String) (s : σ) : Decoded PartialTool :=
  match key with
  | "label" => do return { t with label := ← fill key t.label decodeString s }
  | "params" => do return { t with params := ← fill key t.params (decodeOption decodeString) s }
  | "returns" => do return { t with returns := ← fill key t.returns (decodeOption decodeString) s }
  | "description" => do
    return { t with description := ← fill key t.description (decodeOption decodeString) s }
  | _ => passOver t s

def toolShape : RecordShape σ ToolContent where
  name := "ToolData"
  fields := 4
  ofMembers members ending := do
    let t ← foldMembers setTool ending {} members
    return ⟨← require "label" t.label, t.params.getD none, t.returns.getD none,
      t.description.getD none⟩
  ofItems := do
    return ⟨← nextField none decodeString, ← nextField (some none) (decodeOption decodeString),
      ← nextField (some none) (decodeOption decodeString),
      ← nextField (some none) (decodeOption decodeString)⟩

/-- The data of a state of which some fields are known. -/
structure PartialState where
  label : Option String := none
  fields : Option (Option (List String)) := none

def setState (t : PartialState) (key : String) (s : σ) : Decoded PartialState :=
  match key with
  | "label" => do return { t with label := ← fill key t.label decodeString s }
  | "fields" => do
    return { t with fields := ← fill key t.fields (decodeOption (decodeList decodeString)) s }
  | _ => passOver t s

def stateShape : RecordShape σ StateContent where
  name := "StateData"
  fields := 2
  ofMembers members ending := do
    let t ← foldMembers setState ending {} members
    return ⟨← require "label" t.label, t.fields.getD none⟩
  ofItems := do
    return ⟨← nextField none decodeString,
      ← nextField (some none) (decodeOption (decodeList decodeString))⟩

/-- The data of an event handler of which some fields are known. -/
structure PartialEvent where
  label : Option String := none
  eventClass : Option (Option EventClass) := none

/-- The classes of event handlers by name. -/
def eventVariants : List (String × EventClass) := EventClass.all.map fun c => (c.name, c)

def setEvent (e : PartialEvent) (key : String) (s : Value) : Decoded PartialEvent :=
  match key with
  | "label" => do return { e with label := ← fill key e.label decodeString s }
  | "eventType" => do
    return { e with
      eventClass := ← fill key e.eventClass (decodeOption (Value.decodeVariant eventVariants)) s }
  | _ => passOver e s

def eventShape : RecordShape Value EventContent where
  name := "EventData"
  fields := 2
  ofMembers members ending := do
    let e ← foldMembers setEvent ending {} members
    return ⟨← require "label" e.label, e.eventClass.getD none⟩
  ofItems := do
    return ⟨← nextField none decodeString,
      ← nextField (some none) (decodeOption (Value.decodeVariant eventVariants))⟩

/-- The data of a node of the given kind; nothing for a kind that there is not. -/
def decodeContent? (kind : String) (v : Value) : Option (Decoded Content) :=
  match kind with
  | "agent" => some (.agent <$> decodeRecord agentShape v)
  | "tool" => some (.tool <$> decodeRecord toolShape v)
  | "event" => some (.event <$> decodeRecord eventShape v)
  | "state" => some (.state <$> decodeRecord stateShape v)
  | _ => none

/-- A node before its data is decoded. -/
structure RawNode where
  id : String
  kind : String
  position : Position
  data : Value

/-- The data of a raw node decoded. -/
def RawNode.resolve (n : RawNode) : Decoded Node :=
  match decodeContent? n.kind n.data with
  | none => refuse (.unknownKind n.id n.kind)
  | some (.ok data) => .ok ⟨n.id, n.position, data⟩
  | some (.error (.mismatch reason)) => refuse (.wrongData n.id reason)
  | some (.error (.fault f)) => .error (.fault f)

/-- Around the data of a node are an array or object for the graph, one for the nodes and one for
the node. -/
def decodePlain (d : Draft) : Decoded Value := .ofFault (d.toValue (depthLimit - 3))

/-- A raw node of which some fields are known. -/
structure PartialNode where
  id : Option String := none
  kind : Option String := none
  position : Option Position := none
  data : Option Value := none

def setNode (n : PartialNode) (key : String) (d : Draft) : Decoded PartialNode :=
  match key with
  | "id" => do return { n with id := ← fill key n.id decodeString d }
  | "type" => do return { n with kind := ← fill key n.kind decodeString d }
  | "position" => do return { n with position := ← fill key n.position decodePosition d }
  | "data" => do return { n with data := ← fill key n.data decodePlain d }
  | _ => passOver n d

/-- The place of a node that has none. -/
def origin : Position := ⟨0, 0⟩

def nodeShape : RecordShape Draft RawNode where
  name := "RawNode"
  fields := 4
  ofMembers members ending := do
    let n ← foldMembers setNode ending {} members
    return ⟨← require "id" n.id, ← require "type" n.kind, n.position.getD origin,
      n.data.getD .null⟩
  ofItems := do
    return ⟨← nextField none decodeString, ← nextField none decodeString,
      ← nextField (some origin) decodePosition, ← nextField (some .null) decodePlain⟩

def decodeNode (d : Draft) : Decoded Node := do
  let raw ← decodeRecord nodeShape d
  raw.resolve

/-- An edge of which some fields are known. -/
structure PartialEdge where
  id : Option String := none
  source : Option String := none
  target : Option String := none
  sourceHandle : Option (Option String) := none
  targetHandle : Option (Option String) := none

def setEdge (e : PartialEdge) (key : String) (s : σ) : Decoded PartialEdge :=
  match key with
  | "id" => do return { e with id := ← fill key e.id decodeString s }
  | "source" => do return { e with source := ← fill key e.source decodeString s }
  | "target" => do return { e with target := ← fill key e.target decodeString s }
  | "sourceHandle" => do
    return { e with sourceHandle := ← fill key e.sourceHandle (decodeOption decodeString) s }
  | "targetHandle" => do
    return { e with targetHandle := ← fill key e.targetHandle (decodeOption decodeString) s }
  | _ => passOver e s

def edgeShape : RecordShape σ Edge where
  name := "WorkflowEdge"
  fields := 5
  ofMembers members ending := do
    let e ← foldMembers setEdge ending {} members
    return ⟨← require "id" e.id, ← require "source" e.source, ← require "target" e.target,
      e.sourceHandle.getD none, e.targetHandle.getD none⟩
  ofItems := do
    return ⟨← nextField none decodeString, ← nextField none decodeString,
      ← nextField none decodeString, ← nextField (some none) (decodeOption decodeString),
      ← nextField (some none) (decodeOption decodeString)⟩

def decodeEdge (s : σ) : Decoded Edge := decodeRecord edgeShape s

/-- A graph of which some fields are known. -/
structure PartialGraph where
  nodes : Option (List Node) := none
  edges : Option (List Edge) := none

def setGraph (g : PartialGraph) (key : String) (d : Draft) : Decoded PartialGraph :=
  match key with
  | "nodes" => do return { g with nodes := ← fill key g.nodes (decodeList decodeNode) d }
  | "edges" => do return { g with edges := ← fill key g.edges (decodeList decodeEdge) d }
  | _ => passOver g d

def graphShape : RecordShape Draft Graph where
  name := "WorkflowGraph"
  fields := 2
  ofMembers members ending := do
    let g ← foldMembers setGraph ending {} members
    return ⟨← require "nodes" g.nodes, ← require "edges" g.edges⟩
  ofItems := do
    return ⟨← nextField none (decodeList decodeNode), ← nextField none (decodeList decodeEdge)⟩

end Records

/-- The graph of a document. -/
def readGraph (document : String) : Decoded Graph :=
  decodeText (decodeRecord graphShape) document

/-- Why a document holds no graph. -/
def graphErrorMessage (e : DecodeError) : String := "Failed to decode graph JSON: " ++ e.message

end AgentScript.Wire
