import AgentScript.Json.Decode
import AgentScript.Json.Print
import AgentScript.Outline

/-!
# Outline documents

An outline as a JSON document.  Every field is there, `null` where nothing is known; a document in
which a field that may be `null` is missing is read all the same, if its record is an object.
-/

namespace AgentScript.Wire.OutlineDocument

open AgentScript.Json

/-! ## Encoding -/

def natural (n : Nat) : Value := .number (.integer n)

def nullable (s : Option String) : Value := (s.map .string).getD .null

def encodePlace (p : Place) : Value :=
  .object [("line", natural p.line), ("column", natural p.column)]

def encodeModel (m : ModelChoice) : Value :=
  .object [("provider", nullable m.provider), ("name", nullable m.name)]

def encodeAgent (a : AgentDecl) : Value :=
  .object [("name", .string a.name), ("description", nullable a.description),
    ("version", nullable a.version), ("model", (a.model.map encodeModel).getD .null),
    ("position", encodePlace a.place)]

def encodeTool (t : ToolDecl) : Value :=
  .object [("name", .string t.name), ("params", .string t.params),
    ("returnType", nullable t.returns), ("description", nullable t.description),
    ("agentName", .string t.agent), ("position", encodePlace t.place)]

def encodeEvent (e : EventDecl) : Value :=
  .object [("name", .string e.name), ("eventType", .string e.eventClass.name),
    ("agentName", .string e.agent), ("position", encodePlace e.place)]

def encodeStateField (f : StateField) : Value :=
  .object [("name", .string f.name), ("type", .string f.type), ("optional", .bool f.optional)]

def encodeState (s : StateDecl) : Value :=
  .object [("agentName", .string s.agent), ("fields", .array (s.fields.map encodeStateField)),
    ("position", encodePlace s.place)]

def encodeTypeField (f : TypeField) : Value :=
  .object [("name", .string f.name), ("type", .string f.type)]

def encodeType (t : TypeDecl) : Value :=
  .object [("name", .string t.name), ("fields", .array (t.fields.map encodeTypeField)),
    ("position", encodePlace t.place)]

def encodeDiagnostic (d : Diagnostic) : Value :=
  .object [("severity", .string d.severity.name), ("message", .string d.message),
    ("line", natural d.line)]

def encode (o : Outline) : Value :=
  .object [("agents", .array (o.agents.map encodeAgent)),
    ("tools", .array (o.tools.map encodeTool)), ("events", .array (o.events.map encodeEvent)),
    ("states", .array (o.states.map encodeState)), ("types", .array (o.types.map encodeType)),
    ("diagnostics", .array (o.diagnostics.map encodeDiagnostic))]

/-- The document of an outline. -/
def write (o : Outline) : String := (encode o).pretty

/-! ## Decoding -/

/-- A place of which some fields are known. -/
structure PartialPlace where
  line : Option Nat := none
  column : Option Nat := none

def setPlace (p : PartialPlace) (key : String) (d : Draft) : Decoded PartialPlace :=
  match key with
  | "line" => do return { p with line := ← fill key p.line decodeNat d }
  | "column" => do return { p with column := ← fill key p.column decodeNat d }
  | _ => passOver p d

def placeShape : RecordShape Draft Place where
  name := "SourcePosition"
  fields := 2
  ofMembers members ending := do
    let p ← foldMembers setPlace ending {} members
    return ⟨← require "line" p.line, ← require "column" p.column⟩
  ofItems := do return ⟨← nextField none decodeNat, ← nextField none decodeNat⟩

def decodePlace : Draft → Decoded Place := decodeRecord placeShape

def decodeNullable : Draft → Decoded (Option String) := decodeOption decodeString

/-- A model of which some fields are known. -/
structure PartialModel where
  provider : Option (Option String) := none
  name : Option (Option String) := none

def setModel (m : PartialModel) (key : String) (d : Draft) : Decoded PartialModel :=
  match key with
  | "provider" => do return { m with provider := ← fill key m.provider decodeNullable d }
  | "name" => do return { m with name := ← fill key m.name decodeNullable d }
  | _ => passOver m d

def modelShape : RecordShape Draft ModelChoice where
  name := "ModelRef"
  fields := 2
  ofMembers members ending := do
    let m ← foldMembers setModel ending {} members
    return ⟨m.provider.getD none, m.name.getD none⟩
  ofItems := do return ⟨← nextField none decodeNullable, ← nextField none decodeNullable⟩

/-- An agent of which some fields are known. -/
structure PartialAgent where
  name : Option String := none
  description : Option (Option String) := none
  version : Option (Option String) := none
  model : Option (Option ModelChoice) := none
  place : Option Place := none

def setAgent (a : PartialAgent) (key : String) (d : Draft) : Decoded PartialAgent :=
  match key with
  | "name" => do return { a with name := ← fill key a.name decodeString d }
  | "description" => do return { a with description := ← fill key a.description decodeNullable d }
  | "version" => do return { a with version := ← fill key a.version decodeNullable d }
  | "model" => do
    return { a with model := ← fill key a.model (decodeOption (decodeRecord modelShape)) d }
  | "position" => do return { a with place := ← fill key a.place decodePlace d }
  | _ => passOver a d

def agentShape : RecordShape Draft AgentDecl where
  name := "ParsedAgent"
  fields := 5
  ofMembers members ending := do
    let a ← foldMembers setAgent ending {} members
    return ⟨← require "name" a.name, a.description.getD none, a.version.getD none,
      a.model.getD none, ← require "position" a.place⟩
  ofItems := do
    return ⟨← nextField none decodeString, ← nextField none decodeNullable,
      ← nextField none decodeNullable, ← nextField none (decodeOption (decodeRecord modelShape)),
      ← nextField none decodePlace⟩

/-- A tool of which some fields are known. -/
structure PartialTool where
  name : Option String := none
  params : Option String := none
  returns : Option (Option String) := none
  description : Option (Option String) := none
  agent : Option String := none
  place : Option Place := none

def setTool (t : PartialTool) (key : String) (d : Draft) : Decoded PartialTool :=
  match key with
  | "name" => do return { t with name := ← fill key t.name decodeString d }
  | "params" => do return { t with params := ← fill key t.params decodeString d }
  | "returnType" => do return { t with returns := ← fill key t.returns decodeNullable d }
  | "description" => do return { t with description := ← fill key t.description decodeNullable d }
  | "agentName" => do return { t with agent := ← fill key t.agent decodeString d }
  | "position" => do return { t with place := ← fill key t.place decodePlace d }
  | _ => passOver t d

def toolShape : RecordShape Draft ToolDecl where
  name := "ParsedTool"
  fields := 6
  ofMembers members ending := do
    let t ← foldMembers setTool ending {} members
    return ⟨← require "name" t.name, ← require "params" t.params, t.returns.getD none,
      t.description.getD none, ← require "agentName" t.agent, ← require "position" t.place⟩
  ofItems := do
    return ⟨← nextField none decodeString, ← nextField none decodeString,
      ← nextField none decodeNullable, ← nextField none decodeNullable,
      ← nextField none decodeString, ← nextField none decodePlace⟩

/-- The classes of event handlers by name. -/
def eventVariants : List (String × EventClass) := EventClass.all.map fun c => (c.name, c)

/-- An event handler of which some fields are known. -/
structure PartialEvent where
  name : Option String := none
  eventClass : Option EventClass := none
  agent : Option String := none
  place : Option Place := none

def setEvent (e : PartialEvent) (key : String) (d : Draft) : Decoded PartialEvent :=
  match key with
  | "name" => do return { e with name := ← fill key e.name decodeString d }
  | "eventType" => do
    return { e with eventClass := ← fill key e.eventClass (Draft.decodeVariant eventVariants) d }
  | "agentName" => do return { e with agent := ← fill key e.agent decodeString d }
  | "position" => do return { e with place := ← fill key e.place decodePlace d }
  | _ => passOver e d

def eventShape : RecordShape Draft EventDecl where
  name := "ParsedEvent"
  fields := 4
  ofMembers members ending := do
    let e ← foldMembers setEvent ending {} members
    return ⟨← require "name" e.name, ← require "eventType" e.eventClass,
      ← require "agentName" e.agent, ← require "position" e.place⟩
  ofItems := do
    return ⟨← nextField none decodeString, ← nextField none (Draft.decodeVariant eventVariants),
      ← nextField none decodeString, ← nextField none decodePlace⟩

/-- A field of a state block of which some fields are known. -/
structure PartialStateField where
  name : Option String := none
  type : Option String := none
  optional : Option Bool := none

def setStateField (f : PartialStateField) (key : String) (d : Draft) :
    Decoded PartialStateField :=
  match key with
  | "name" => do return { f with name := ← fill key f.name decodeString d }
  | "type" => do return { f with type := ← fill key f.type decodeString d }
  | "optional" => do return { f with optional := ← fill key f.optional decodeBool d }
  | _ => passOver f d

def stateFieldShape : RecordShape Draft StateField where
  name := "StateField"
  fields := 3
  ofMembers members ending := do
    let f ← foldMembers setStateField ending {} members
    return ⟨← require "name" f.name, ← require "type" f.type, ← require "optional" f.optional⟩
  ofItems := do
    return ⟨← nextField none decodeString, ← nextField none decodeString,
      ← nextField none decodeBool⟩

/-- A state block of which some fields are known. -/
structure PartialState where
  agent : Option String := none
  fields : Option (List StateField) := none
  place : Option Place := none

def setState (t : PartialState) (key : String) (d : Draft) : Decoded PartialState :=
  match key with
  | "agentName" => do return { t with agent := ← fill key t.agent decodeString d }
  | "fields" => do
    return { t with fields := ← fill key t.fields (decodeList (decodeRecord stateFieldShape)) d }
  | "position" => do return { t with place := ← fill key t.place decodePlace d }
  | _ => passOver t d

def stateShape : RecordShape Draft StateDecl where
  name := "ParsedState"
  fields := 3
  ofMembers members ending := do
    let t ← foldMembers setState ending {} members
    return ⟨← require "agentName" t.agent, ← require "fields" t.fields,
      ← require "position" t.place⟩
  ofItems := do
    return ⟨← nextField none decodeString,
      ← nextField none (decodeList (decodeRecord stateFieldShape)), ← nextField none decodePlace⟩

/-- A field of a type of which some fields are known. -/
structure PartialTypeField where
  name : Option String := none
  type : Option String := none

def setTypeField (f : PartialTypeField) (key : String) (d : Draft) : Decoded PartialTypeField :=
  match key with
  | "name" => do return { f with name := ← fill key f.name decodeString d }
  | "type" => do return { f with type := ← fill key f.type decodeString d }
  | _ => passOver f d

def typeFieldShape : RecordShape Draft TypeField where
  name := "TypeField"
  fields := 2
  ofMembers members ending := do
    let f ← foldMembers setTypeField ending {} members
    return ⟨← require "name" f.name, ← require "type" f.type⟩
  ofItems := do return ⟨← nextField none decodeString, ← nextField none decodeString⟩

/-- A type of which some fields are known. -/
structure PartialType where
  name : Option String := none
  fields : Option (List TypeField) := none
  place : Option Place := none

def setType (t : PartialType) (key : String) (d : Draft) : Decoded PartialType :=
  match key with
  | "name" => do return { t with name := ← fill key t.name decodeString d }
  | "fields" => do
    return { t with fields := ← fill key t.fields (decodeList (decodeRecord typeFieldShape)) d }
  | "position" => do return { t with place := ← fill key t.place decodePlace d }
  | _ => passOver t d

def typeShape : RecordShape Draft TypeDecl where
  name := "ParsedType"
  fields := 3
  ofMembers members ending := do
    let t ← foldMembers setType ending {} members
    return ⟨← require "name" t.name, ← require "fields" t.fields, ← require "position" t.place⟩
  ofItems := do
    return ⟨← nextField none decodeString,
      ← nextField none (decodeList (decodeRecord typeFieldShape)), ← nextField none decodePlace⟩

/-- The severities by name. -/
def severityVariants : List (String × Severity) :=
  [Severity.warning, Severity.error].map fun s => (s.name, s)

/-- A diagnostic of which some fields are known. -/
structure PartialDiagnostic where
  severity : Option Severity := none
  message : Option String := none
  line : Option Nat := none

def setDiagnostic (g : PartialDiagnostic) (key : String) (d : Draft) :
    Decoded PartialDiagnostic :=
  match key with
  | "severity" => do
    return { g with severity := ← fill key g.severity (Draft.decodeVariant severityVariants) d }
  | "message" => do return { g with message := ← fill key g.message decodeString d }
  | "line" => do return { g with line := ← fill key g.line decodeNat d }
  | _ => passOver g d

def diagnosticShape : RecordShape Draft Diagnostic where
  name := "Diagnostic"
  fields := 3
  ofMembers members ending := do
    let g ← foldMembers setDiagnostic ending {} members
    return ⟨← require "severity" g.severity, ← require "message" g.message,
      ← require "line" g.line⟩
  ofItems := do
    return ⟨← nextField none (Draft.decodeVariant severityVariants),
      ← nextField none decodeString, ← nextField none decodeNat⟩

/-- An outline of which some fields are known. -/
structure PartialOutline where
  agents : Option (List AgentDecl) := none
  tools : Option (List ToolDecl) := none
  events : Option (List EventDecl) := none
  states : Option (List StateDecl) := none
  types : Option (List TypeDecl) := none
  diagnostics : Option (List Diagnostic) := none

def setOutline (o : PartialOutline) (key : String) (d : Draft) : Decoded PartialOutline :=
  match key with
  | "agents" => do
    return { o with agents := ← fill key o.agents (decodeList (decodeRecord agentShape)) d }
  | "tools" => do
    return { o with tools := ← fill key o.tools (decodeList (decodeRecord toolShape)) d }
  | "events" => do
    return { o with events := ← fill key o.events (decodeList (decodeRecord eventShape)) d }
  | "states" => do
    return { o with states := ← fill key o.states (decodeList (decodeRecord stateShape)) d }
  | "types" => do
    return { o with types := ← fill key o.types (decodeList (decodeRecord typeShape)) d }
  | "diagnostics" => do
    return { o with
      diagnostics := ← fill key o.diagnostics (decodeList (decodeRecord diagnosticShape)) d }
  | _ => passOver o d

def outlineShape : RecordShape Draft Outline where
  name := "ParseResult"
  fields := 6
  ofMembers members ending := do
    let o ← foldMembers setOutline ending {} members
    return ⟨← require "agents" o.agents, ← require "tools" o.tools, ← require "events" o.events,
      ← require "states" o.states, ← require "types" o.types,
      ← require "diagnostics" o.diagnostics⟩
  ofItems := do
    return ⟨← nextField none (decodeList (decodeRecord agentShape)),
      ← nextField none (decodeList (decodeRecord toolShape)),
      ← nextField none (decodeList (decodeRecord eventShape)),
      ← nextField none (decodeList (decodeRecord stateShape)),
      ← nextField none (decodeList (decodeRecord typeShape)),
      ← nextField none (decodeList (decodeRecord diagnosticShape))⟩

/-- The outline of a document. -/
def read (document : String) : Decoded Outline := decodeText (decodeRecord outlineShape) document

end AgentScript.Wire.OutlineDocument
