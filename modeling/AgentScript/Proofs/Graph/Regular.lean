import AgentScript.Proofs.Graph.Legible
import Mathlib.Data.List.Nodup

/-!
# Graphs that come back from their canonical scripts

A graph is *regular* if nothing is found in it and nothing in it is hard to read: its agents are
told apart by their names, parameters hold no quotes, braces or comment signs, no line breaks stand
in signatures and fields, and every field is one.  Reading the script of a regular graph gives back
what the graph says, fields included (`Graph.Regular.readsBack`).
-/

namespace AgentScript

open Canonical Script Text

/-- A graph without findings whose script says what the graph says. -/
structure Graph.Regular (g : Graph) : Prop where
  /-- Nothing is found in the graph. -/
  lint_eq_nil : g.lint = []
  /-- Agents are told apart by their labels. -/
  labels_nodup : ((g.nodes.filterMap (·.content.agent?)).map (·.label)).Nodup
  params : ∀ n ∈ g.nodes, ∀ t, n.content = .tool t →
    ∀ params ∈ t.params, PlainParams params ∧ '\n' ∉ params.toList
  returns : ∀ n ∈ g.nodes, ∀ t, n.content = .tool t → ∀ type ∈ t.returns, '\n' ∉ type.toList
  fields : ∀ n ∈ g.nodes, ∀ s, n.content = .state s →
    ∀ f ∈ s.fields.getD [], IsField f ∧ '\n' ∉ f.toList

variable {g : Graph}

/-! ## Fields keep to their lines -/

/-- A type ends in one of its characters. -/
lemma getLast?_of_typeTail {tail : List Char} (h : TypeTail tail) :
    ∀ c, isTypeChar c = true → ∃ d, (c :: tail).getLast? = some d ∧ isTypeChar d = true := by
  induction h with
  | nil => exact fun c hc => ⟨c, rfl, hc⟩
  | char hd _ ih =>
    intro c _
    rw [List.getLast?_cons_cons]
    exact ih _ hd
  | comma _ hd _ ih =>
    intro c _
    rw [List.getLast?_cons_cons, ← List.cons_append,
      List.getLast?_append_of_ne_nil _ (List.cons_ne_nil _ _)]
    exact ih _ hd

lemma isLine_of_type {front type : List Char} (htype : isType type = true) (h : '\n' ∉ front ++ type) :
    IsLine (front ++ type) := by
  obtain ⟨c, tail, rfl, hc, htail⟩ := isType_iff.1 htype
  obtain ⟨d, hlast, hd⟩ := getLast?_of_typeTail htail c hc
  refine isLine_of_last h (c := d) ?_ ?_
  · rw [List.getLast?_append_of_ne_nil _ (List.cons_ne_nil _ _), hlast]
  · rintro rfl
    revert hd
    decide

lemma isBodyLine_render {f : StateField} (h : Writable f.name f.type)
    (hnew : '\n' ∉ f.render.toList) : IsBodyLine f.render := by
  have hinert := inert_render h
  refine ⟨?_, ?_⟩
  · rw [IsTextLine, toList_render_stateField]
    rw [toList_render_stateField] at hnew
    exact isLine_of_type h.isType hnew
  · rw [mask_of_plain hinert.plain]
    exact hinert.braceless

lemma IsField.isBodyLine {f : String} (h : IsField f) (hnew : '\n' ∉ f.toList) : IsBodyLine f := by
  obtain ⟨field, hfield, rfl⟩ := h
  exact isBodyLine_render hfield hnew

lemma IsField.isBodyLine_required {f : String} (h : IsField f) (hnew : '\n' ∉ f.toList) :
    IsBodyLine (required f) := by
  have hrequired : '\n' ∉ (required f).toList := by
    rw [required, String.toList_ofList]
    exact fun hmem => hnew (List.mem_of_mem_filter hmem)
  obtain ⟨field, hfield, rfl⟩ := h
  rw [required_render hfield, render_typeField] at hrequired ⊢
  exact isBodyLine_render (f := ⟨field.name, field.type, false⟩) hfield hrequired

namespace Graph

/-- A regular graph is legible. -/
theorem Regular.legible (h : g.Regular) : g.Legible where
  lint_eq_nil := h.lint_eq_nil
  params n hn t ht params hparams := (h.params n hn t ht params hparams).2
  returns := h.returns
  opens n hn t ht _ := by
    obtain ⟨hname, -, hreturns, -⟩ := tool_values_of_lint h.lint_eq_nil hn ht
    have hparams : ∀ params ∈ t.params, PlainParams params :=
      fun params hparams => (h.params n hn t ht params hparams).1
    rw [netBraces_headerLine hname hparams hreturns]
    decide
  stateFields n hn s hs _ f hf := by
    obtain ⟨hfield, hnew⟩ := h.fields n hn s hs f hf
    exact hfield.isBodyLine hnew
  typeFields n hn s hs _ f hf := by
    obtain ⟨hfield, hnew⟩ := h.fields n hn s hs f hf
    exact hfield.isBodyLine_required hnew

lemma Regular.isField_of_mem_sheets (h : g.Regular) {s : Sheet} (hs : s ∈ g.sheets) :
    ∀ f ∈ s.fields.getD [], IsField f := by
  intro f hf
  rcases mem_sheets hs with ⟨n, -, a, -, rfl⟩ | rfl
  · obtain ⟨m, hm, state, hcontent, -, hf⟩ := exists_node_of_mem_fields hf
    exact (h.fields m hm state hcontent f hf).1
  · cases hf

lemma Regular.isField_of_mem_looseStates (h : g.Regular) {s : StateContent}
    (hs : s ∈ g.looseStates) : ∀ f ∈ s.fields.getD [], IsField f := by
  intro f hf
  obtain ⟨n, hn, hstate⟩ := List.mem_filterMap.1 hs
  exact (h.fields n (List.mem_of_mem_filter hn) s (state?_eq_some hstate) f hf).1

/-! ## Names of their own -/

lemma agentSheets_labels (g : Graph) :
    g.agentSheets.map (·.agent.label) =
      (g.nodes.filterMap (·.content.agent?)).map (·.label) := by
  rw [agentSheets, List.map_filterMap, List.map_filterMap]
  refine congrArg (g.nodes.filterMap ·) (funext fun n => ?_)
  rw [Option.map_map]
  rfl

lemma Regular.sheets_labels_nodup (h : g.Regular) : (g.sheets.map (·.agent.label)).Nodup := by
  unfold sheets
  split
  · split
    next => exact List.nodup_nil
    next => exact List.nodup_singleton _
  · rw [agentSheets_labels]
    exact h.labels_nodup

lemma stateDecls_agent_sublist (sheets : List Sheet) :
    ((sheets.flatMap Sheet.stateDecls).map (·.agent)).Sublist (sheets.map (·.agent.label)) := by
  induction sheets with
  | nil => exact List.Sublist.slnil
  | cons s sheets ih =>
    rw [List.flatMap_cons, List.map_append, List.map_cons]
    unfold Sheet.stateDecls
    split
    · exact ih.cons _
    · exact ih.cons_cons _

/-- Reading the script of a regular graph declares what its blocks declare, and finds nothing but
members that are declared again. -/
theorem Regular.unplaced_outline (h : g.Regular) :
    (outline g.script).unplaced = g.declared ∧
      ∀ d ∈ (outline g.script).diagnostics, IsRepeatedMember d := by
  obtain ⟨hunplaced, -, hclean⟩ := unplaced_outline_script fun b hb => h.legible.readable_block hb
  refine ⟨hunplaced, hclean ?_ ?_⟩
  · rw [declared_agents, List.map_map]
    exact h.sheets_labels_nodup
  · rw [declared_states]
    exact (stateDecls_agent_sublist g.sheets).nodup h.sheets_labels_nodup

/-! ## What is read back -/

/-- Fields come back as they were spelled. -/
lemma map_render_stateFields {fields : List String} (h : ∀ f ∈ fields, IsField f) :
    (fields.flatMap stateFieldsIn).map StateField.render = fields := by
  induction fields with
  | nil => rfl
  | cons f fields ih =>
    have hfirst := render_stateFieldsIn_iff.2 (h f List.mem_cons_self)
    rw [List.flatMap_cons, List.map_append, hfirst, ih fun f' hf' => h f' (List.mem_cons_of_mem _ hf')]
    rfl

/-- The fields of a type come back as they were spelled, without their question marks. -/
lemma map_render_typeFields {fields : List String} (h : ∀ f ∈ fields, IsField f) :
    (fields.flatMap fun f => typeFieldsIn (required f)).map TypeField.render =
      fields.map required := by
  induction fields with
  | nil => rfl
  | cons f fields ih =>
    have hfirst := render_typeFieldsIn_iff.2 (h f List.mem_cons_self).isTypeField_required
    rw [List.flatMap_cons, List.map_append, List.map_cons, hfirst,
      ih fun f' hf' => h f' (List.mem_cons_of_mem _ hf')]
    rfl

/-- What an outline gives back of the graph whose script was read. -/
structure ReadBack (g : Graph) (o : Outline) : Prop where
  /-- The agents in the order of their nodes, with what is not empty of their values; of a graph
  without agents, the one that holds its tools. -/
  agents : o.agents.map AgentDecl.unplaced = g.sheets.map Sheet.agentDecl
  /-- Under each agent its tools, in the order of their first links. -/
  tools : o.tools.map ToolDecl.unplaced =
    g.sheets.flatMap fun s => s.tools.map (Sheet.toolDecl s.agent.label)
  /-- Under each agent its event handlers, in the order of their first links. -/
  events : o.events.map EventDecl.unplaced =
    g.sheets.flatMap fun s => s.events.map (Sheet.eventDecl s.agent.label)
  /-- The fields of the state that counts for an agent, if it has any. -/
  states : o.states.map (fun d => (d.agent, d.fields.map StateField.render)) =
    (g.sheets.filter fun s => s.fields.getD [] ≠ []).map fun s => (s.agent.label, s.fields.getD [])
  /-- The states with fields that count for no agent, in the order of their nodes. -/
  types : o.types.map (fun d => (d.name, d.fields.map TypeField.render)) =
    (g.looseStates.filter fun s => s.fields.getD [] ≠ []).map
      fun s => (s.typeName, (s.fields.getD []).map required)

/-- The states with fields that are to be types, with their fields as they were spelled. -/
lemma map_render_types {states : List StateContent}
    (h : ∀ s ∈ states, ∀ f ∈ s.fields.getD [], IsField f) {types : List TypeDecl}
    (htypes : types.map (fun d => (d.name, d.fields)) =
      (states.filter fun s => s.fields.getD [] ≠ []).map
        fun s => (s.typeName, (s.fields.getD []).flatMap fun f => typeFieldsIn (required f))) :
    types.map (fun d => (d.name, d.fields.map TypeField.render)) =
      (states.filter fun s => s.fields.getD [] ≠ []).map
        fun s => (s.typeName, (s.fields.getD []).map required) := by
  have hpairs : types.map (fun d => (d.name, d.fields.map TypeField.render)) =
      (types.map fun d => (d.name, d.fields)).map fun p => (p.1, p.2.map TypeField.render) := by
    rw [List.map_map]
    rfl
  rw [hpairs, htypes, List.map_map]
  apply List.map_congr_left
  intro s hs
  rw [Function.comp_apply, map_render_typeFields (h s (List.mem_of_mem_filter hs))]

/-- Where every field is one, fields are given back as they were spelled. -/
lemma Restored.readBack {o : Outline} (h : g.Restored o)
    (hsheets : ∀ s ∈ g.sheets, ∀ f ∈ s.fields.getD [], IsField f)
    (hstates : ∀ s ∈ g.looseStates, ∀ f ∈ s.fields.getD [], IsField f) : g.ReadBack o := by
  refine ⟨h.agents, h.tools, h.events, ?_, map_render_types hstates h.types⟩
  have hpairs : o.states.map (fun d => (d.agent, d.fields.map StateField.render)) =
      (o.states.map fun d => (d.agent, d.fields)).map fun p => (p.1, p.2.map StateField.render) := by
    rw [List.map_map]
    rfl
  rw [hpairs, h.states, List.map_map]
  apply List.map_congr_left
  intro s hs
  rw [Function.comp_apply, map_render_stateFields (hsheets s (List.mem_of_mem_filter hs))]

/-- **Parsing undoes generation.**  Reading the canonical script of a regular graph finds no error
and gives back the agents, their members, their states, and as types the states that count for no
agent. -/
theorem Regular.readsBack (h : g.Regular) :
    (outline g.script).isFaulty = false ∧ g.ReadBack (outline g.script) := by
  obtain ⟨hfaulty, hrestored⟩ := h.legible.restored_outline
  exact ⟨hfaulty, hrestored.readBack (fun s hs => h.isField_of_mem_sheets hs)
    fun s hs => h.isField_of_mem_looseStates hs⟩

/-- A workflow with edges in both directions, an edge that comes again, and a state of its own. -/
def sampleWorkflow : Graph where
  nodes := [
    ⟨"a", ⟨0, 0⟩, .agent ⟨"Main", some "version: ", none, some "opus", none⟩⟩,
    ⟨"t", ⟨0, 0⟩, .tool ⟨"search", some " query: string ", some "Map<string, number>", none⟩⟩,
    ⟨"e", ⟨0, 0⟩, .event ⟨"message", none⟩⟩,
    ⟨"s", ⟨0, 0⟩, .state ⟨"State", some ["seen?: Map<string, number>"]⟩⟩,
    ⟨"u", ⟨0, 0⟩, .state ⟨"Settings", some ["theme?: string"]⟩⟩]
  edges := [.joining "t" "a", .joining "a" "e", .joining "a" "t", .joining "s" "a"]

lemma regular_sampleWorkflow : sampleWorkflow.Regular where
  lint_eq_nil := by decide +kernel
  labels_nodup := by decide +kernel
  params := by
    intro n hn t ht params hparams
    simp only [sampleWorkflow, List.mem_cons, List.not_mem_nil, or_false] at hn
    rcases hn with rfl | rfl | rfl | rfl | rfl <;> cases ht
    obtain rfl := Option.some.inj hparams
    exact ⟨⟨.of_not_mem (by decide) (by decide), by decide⟩, by decide⟩
  returns := by
    intro n hn t ht type htype
    simp only [sampleWorkflow, List.mem_cons, List.not_mem_nil, or_false] at hn
    rcases hn with rfl | rfl | rfl | rfl | rfl <;> cases ht
    obtain rfl := Option.some.inj htype
    decide
  fields := by
    intro n hn s hs f hf
    have hmap : Writable "seen" "Map<string, number>" :=
      ⟨by decide, by decide, (unseparated_iff_commasEnclosed (by decide)).1 (by decide)⟩
    have hstring : Writable "theme" "string" :=
      ⟨by decide, by decide, (unseparated_iff_commasEnclosed (by decide)).1 (by decide)⟩
    simp only [sampleWorkflow, List.mem_cons, List.not_mem_nil, or_false] at hn
    rcases hn with rfl | rfl | rfl | rfl | rfl <;> cases hs
    · rw [List.mem_singleton.1 hf]
      exact ⟨⟨⟨"seen", "Map<string, number>", true⟩, hmap, rfl⟩, by decide⟩
    · rw [List.mem_singleton.1 hf]
      exact ⟨⟨⟨"theme", "string", true⟩, hstring, rfl⟩, by decide⟩

/-- The sample comes back. -/
theorem readsBack_sampleWorkflow :
    sampleWorkflow.Regular ∧ (outline sampleWorkflow.script).isFaulty = false ∧
      sampleWorkflow.ReadBack (outline sampleWorkflow.script) :=
  ⟨regular_sampleWorkflow, Regular.readsBack regular_sampleWorkflow⟩

end Graph

end AgentScript
