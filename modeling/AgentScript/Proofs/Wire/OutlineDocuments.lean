import AgentScript.Proofs.Json.Records
import AgentScript.Wire.Outline

/-!
# Outline documents come back

Every outline is what is decoded from its document, if its lines and columns are machine words
(`read_write`).  There is one lemma for each kind of record, and each is the same argument: the
members are there in the order of the fields, and every one of them comes back.
-/

namespace AgentScript

/-- Line and column are words of 64 bits. -/
def Place.WordSized (p : Place) : Prop := p.line < 2 ^ 64 ∧ p.column < 2 ^ 64

instance (p : Place) : Decidable p.WordSized := inferInstanceAs (Decidable (_ ∧ _))

/-- All the lines and columns of an outline are words of 64 bits. -/
structure Outline.WordSized (o : Outline) : Prop where
  agents : ∀ a ∈ o.agents, a.place.WordSized
  tools : ∀ t ∈ o.tools, t.place.WordSized
  events : ∀ e ∈ o.events, e.place.WordSized
  states : ∀ s ∈ o.states, s.place.WordSized
  types : ∀ t ∈ o.types, t.place.WordSized
  diagnostics : ∀ d ∈ o.diagnostics, d.line < 2 ^ 64

namespace Wire.OutlineDocument

open AgentScript.Json

/-! ## Parts of records -/

lemma decodeOption_getD {α : Type} {decode : Draft → Decoded α} {encode : α → Value}
    (hnull : ∀ a, Source.view (encode a).draft ≠ .ok .null)
    (h : ∀ a, decode (encode a).draft = .ok a) (o : Option α) :
    decodeOption decode ((o.map encode).getD .null).draft = .ok o := by
  cases o with
  | none => exact decodeOption_null Value.view_draft_null
  | some a => exact decodeOption_some (hnull a) (h a)

@[simp]
lemma decodeNullable_nullable (s : Option String) : decodeNullable (nullable s).draft = .ok s := by
  refine decodeOption_getD (fun s => ?_) decodeString_draft s
  rw [Value.view_draft_string]
  exact nofun

lemma decodeVariant_string {α : Type} (variants : List (String × α)) (s : String) :
    Draft.decodeVariant variants (Value.string s).draft = variantOf variants s := by
  rw [Value.draft, Draft.decodeVariant, value_printedText]
  rfl

@[simp]
lemma decodeVariant_eventClass (c : EventClass) :
    Draft.decodeVariant eventVariants (Value.string c.name).draft = .ok c := by
  rw [decodeVariant_string]
  cases c <;> rfl

@[simp]
lemma decodeVariant_severity (s : Severity) :
    Draft.decodeVariant severityVariants (Value.string s.name).draft = .ok s := by
  rw [decodeVariant_string]
  cases s <;> rfl

lemma decodeNat_natural {n : Nat} (h : n < 2 ^ 64) : decodeNat (natural n).draft = .ok n :=
  decodeNat_draft h

/-- A list comes back if its items do. -/
lemma decodeList_encoded {α : Type} {decode : Draft → Decoded α} {encode : α → Value} {as : List α}
    (h : ∀ a ∈ as, decode (encode a).draft = .ok a) :
    decodeList decode (Value.array (as.map encode)).draft = .ok as := by
  have hlist := decodeList_draft (f := id) h
  rwa [List.map_id] at hlist

/-! ## Records -/

lemma decodePlace_encodePlace {p : Place} (h : p.WordSized) :
    decodePlace (encodePlace p).draft = .ok p := by
  rw [decodePlace, encodePlace, decodeRecord_draft]
  simp [placeShape, setPlace, decodeNat_natural h.1, decodeNat_natural h.2]

lemma decodeRecord_encodeModel (m : ModelChoice) :
    decodeRecord modelShape (encodeModel m).draft = .ok m := by
  rw [encodeModel, decodeRecord_draft]
  simp [modelShape, setModel]

@[simp]
lemma decodeOption_encodeModel (m : Option ModelChoice) :
    decodeOption (decodeRecord modelShape) ((m.map encodeModel).getD .null).draft = .ok m := by
  refine decodeOption_getD (fun m => ?_) decodeRecord_encodeModel m
  rw [encodeModel, Value.view_draft_object]
  exact nofun

lemma decodeRecord_encodeAgent {a : AgentDecl} (h : a.place.WordSized) :
    decodeRecord agentShape (encodeAgent a).draft = .ok a := by
  rw [encodeAgent, decodeRecord_draft]
  simp [agentShape, setAgent, decodePlace_encodePlace h]

lemma decodeRecord_encodeTool {t : ToolDecl} (h : t.place.WordSized) :
    decodeRecord toolShape (encodeTool t).draft = .ok t := by
  rw [encodeTool, decodeRecord_draft]
  simp [toolShape, setTool, decodePlace_encodePlace h]

lemma decodeRecord_encodeEvent {e : EventDecl} (h : e.place.WordSized) :
    decodeRecord eventShape (encodeEvent e).draft = .ok e := by
  rw [encodeEvent, decodeRecord_draft]
  simp [eventShape, setEvent, decodePlace_encodePlace h]

lemma decodeRecord_encodeStateField (f : StateField) :
    decodeRecord stateFieldShape (encodeStateField f).draft = .ok f := by
  rw [encodeStateField, decodeRecord_draft]
  simp [stateFieldShape, setStateField]

lemma decodeRecord_encodeState {s : StateDecl} (h : s.place.WordSized) :
    decodeRecord stateShape (encodeState s).draft = .ok s := by
  have hfields := decodeList_encoded fun f (_ : f ∈ s.fields) => decodeRecord_encodeStateField f
  rw [encodeState, decodeRecord_draft]
  simp [stateShape, setState, hfields, decodePlace_encodePlace h]

lemma decodeRecord_encodeTypeField (f : TypeField) :
    decodeRecord typeFieldShape (encodeTypeField f).draft = .ok f := by
  rw [encodeTypeField, decodeRecord_draft]
  simp [typeFieldShape, setTypeField]

lemma decodeRecord_encodeType {t : TypeDecl} (h : t.place.WordSized) :
    decodeRecord typeShape (encodeType t).draft = .ok t := by
  have hfields := decodeList_encoded fun f (_ : f ∈ t.fields) => decodeRecord_encodeTypeField f
  rw [encodeType, decodeRecord_draft]
  simp [typeShape, setType, hfields, decodePlace_encodePlace h]

lemma decodeRecord_encodeDiagnostic {d : Diagnostic} (h : d.line < 2 ^ 64) :
    decodeRecord diagnosticShape (encodeDiagnostic d).draft = .ok d := by
  rw [encodeDiagnostic, decodeRecord_draft]
  simp [diagnosticShape, setDiagnostic, decodeNat_natural h]

lemma decodeRecord_encode {o : Outline} (h : o.WordSized) :
    decodeRecord outlineShape (encode o).draft = .ok o := by
  have hagents := decodeList_encoded fun a ha => decodeRecord_encodeAgent (h.agents a ha)
  have htools := decodeList_encoded fun t ht => decodeRecord_encodeTool (h.tools t ht)
  have hevents := decodeList_encoded fun e he => decodeRecord_encodeEvent (h.events e he)
  have hstates := decodeList_encoded fun s hs => decodeRecord_encodeState (h.states s hs)
  have htypes := decodeList_encoded fun t ht => decodeRecord_encodeType (h.types t ht)
  have hdiagnostics :=
    decodeList_encoded fun d hd => decodeRecord_encodeDiagnostic (h.diagnostics d hd)
  rw [encode, decodeRecord_draft]
  simp [outlineShape, setOutline, hagents, htools, hevents, hstates, htypes, hdiagnostics]

/-! ## Documents -/

@[simp]
lemma readable_getD {α : Type} {encode : α → Value} (h : ∀ a, (encode a).Readable)
    (o : Option α) : ((o.map encode).getD .null).Readable := by
  cases o with
  | none => exact Value.readable_null
  | some a => exact h a

@[simp]
lemma readable_nullable (s : Option String) : (nullable s).Readable :=
  readable_getD Value.readable_string s

lemma readable_encodePlace (p : Place) : (encodePlace p).Readable := by
  simp [encodePlace, natural, readable_natural]

lemma readable_encodeModel (m : ModelChoice) : (encodeModel m).Readable := by
  simp [encodeModel]

lemma readable_encode (o : Outline) : (encode o).Readable := by
  simp [encode, encodeAgent, encodeTool, encodeEvent, encodeState, encodeStateField, encodeType,
    encodeTypeField, encodeDiagnostic, natural, readable_natural, readable_encodePlace,
    readable_getD readable_encodeModel]

/-- An outline comes back from its document. -/
theorem read_write {o : Outline} (h : o.WordSized) : read (write o) = .ok o := by
  have hends : EndsNumber "".toList := endsNumber_nil
  have hdocument := decodeText_pretty (decodeRecord outlineShape) (readable_encode o) hends
    tokens_nil
  rw [String.append_empty] at hdocument
  rw [read, write, hdocument, decodeRecord_encode h]

end Wire.OutlineDocument

end AgentScript
