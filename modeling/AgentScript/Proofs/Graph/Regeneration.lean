import AgentScript.Proofs.Graph.Drawing
import AgentScript.Proofs.Graph.Regular
import AgentScript.Proofs.Script.Soundness

/-!
# Regeneration

A script is laid out, and the script of the graph takes its place.  Reading the script of a regular
graph and laying out what was read draws the same sheets *settled*: what is empty is left out, what
has a default gets it, parameters are trimmed (`Regular.sheets_declared`).  A settled sheet is written
as the sheet was, so the second script is the first (`Regular.script_layout_outline`).

What was read from a text is nearly settled (`sound_outline`): nothing in it is empty but a field
list, and only a provider can be missing.  So the graph of a text without findings is regular, its
script is a fixed point, and where no default is needed the graph is one as well
(`regenerates`).
-/

namespace AgentScript

open Canonical Script Text

/-! ## Places do not count -/

namespace Layout

lemma placedAgents_map {f : AgentDecl → AgentDecl} (h : ∀ a, (f a).name = a.name)
    (as : List AgentDecl) : placedAgents (as.map f) = (placedAgents as).map f := by
  induction as with
  | nil => rfl
  | cons a as ih =>
    rw [List.map_cons, placedAgents, placedAgents, List.map_cons, ih, List.filter_map]
    simp only [Function.comp_def, h]

lemma placedAgents_sublist (as : List AgentDecl) : (placedAgents as).Sublist as := by
  induction as with
  | nil => exact .slnil
  | cons a as ih => exact (List.filter_sublist.trans ih).cons_cons a

/-- The agents that get a node are told apart by their names. -/
lemma nodup_placedAgents (as : List AgentDecl) : ((placedAgents as).map (·.name)).Nodup := by
  induction as with
  | nil => exact List.nodup_nil
  | cons a as ih =>
    rw [placedAgents, List.map_cons, List.nodup_cons]
    refine ⟨fun hmem => ?_, (List.filter_sublist.map _).nodup ih⟩
    obtain ⟨a', ha', hsame⟩ := List.mem_map.1 hmem
    have hne := List.of_mem_filter ha'
    rw [bne_iff_ne] at hne
    exact hne hsame

/-- Agents that are told apart by their names all get a node. -/
lemma placedAgents_eq_self {as : List AgentDecl} (h : (as.map (·.name)).Nodup) :
    placedAgents as = as := by
  induction as with
  | nil => rfl
  | cons a as ih =>
    rw [List.map_cons, List.nodup_cons] at h
    rw [placedAgents, ih h.2]
    refine congrArg (a :: ·) (List.filter_eq_self.2 fun a' ha' => ?_)
    rw [bne_iff_ne]
    intro hsame
    exact h.1 (hsame ▸ List.mem_map_of_mem ha')

end Layout

namespace Outline

lemma eventsUnder_unplaced (o : Outline) (agent : String) :
    o.unplaced.eventsUnder agent = (o.eventsUnder agent).map EventDecl.unplaced := by
  rw [eventsUnder, unplaced, List.filter_map]
  rfl

lemma stateUnder?_unplaced (o : Outline) (agent : String) :
    o.unplaced.stateUnder? agent = (o.stateUnder? agent).map StateDecl.unplaced := by
  rw [stateUnder?, unplaced, List.find?_map]
  rfl

lemma sheetUnder_unplaced (o : Outline) (a : AgentDecl) :
    o.unplaced.sheetUnder a.unplaced = o.sheetUnder a := by
  have htools : o.unplaced.toolsUnder a.name = (o.toolsUnder a.name).map ToolDecl.unplaced := by
    rw [toolsUnder, unplaced, List.filter_map]
    rfl
  have hname : a.unplaced.name = a.name := rfl
  rw [sheetUnder, hname, htools, eventsUnder_unplaced, stateUnder?_unplaced, List.map_map,
    List.map_map, Option.map_map]
  rfl

/-- Where a declaration stands does not count for the sheets. -/
lemma sheets_unplaced (o : Outline) : o.unplaced.sheets = o.sheets := by
  have hagents : o.unplaced.agents = o.agents.map AgentDecl.unplaced := rfl
  rw [sheets, hagents, Layout.placedAgents_map (f := AgentDecl.unplaced) fun _ => rfl,
    List.map_map, sheets]
  exact List.map_congr_left fun a _ => sheetUnder_unplaced o a

lemma typeStates_unplaced (o : Outline) : o.unplaced.typeStates = o.typeStates := by
  rw [typeStates, unplaced, List.map_map]
  rfl

/-! ## Sheets of a sound outline -/

variable {o : Outline}

lemma mem_agents_of_mem_sheets {s : Sheet} (h : s ∈ o.sheets) :
    ∃ a ∈ o.agents, s = o.sheetUnder a := by
  obtain ⟨a, ha, rfl⟩ := List.mem_map.1 h
  exact ⟨a, (Layout.placedAgents_sublist o.agents).subset ha, rfl⟩

lemma mem_tools_of_mem_sheetUnder {a : AgentDecl} {t : ToolContent}
    (h : t ∈ (o.sheetUnder a).tools) :
    ∃ d ∈ o.tools, t = ⟨d.name, some d.params, d.returns, d.description⟩ := by
  obtain ⟨d, hd, rfl⟩ := List.mem_map.1 h
  exact ⟨d, List.mem_of_mem_filter hd, rfl⟩

lemma mem_events_of_mem_sheetUnder {a : AgentDecl} {e : EventContent}
    (h : e ∈ (o.sheetUnder a).events) : ∃ d ∈ o.events, e = ⟨d.name, some d.eventClass⟩ := by
  obtain ⟨d, hd, rfl⟩ := List.mem_map.1 h
  exact ⟨d, List.mem_of_mem_filter hd, rfl⟩

lemma mem_states_of_mem_sheetUnder {a : AgentDecl} {fields : List String}
    (h : (o.sheetUnder a).fields = some fields) :
    ∃ d ∈ o.states, fields = d.fields.map StateField.render := by
  obtain ⟨d, hd, rfl⟩ := Option.map_eq_some_iff.1 h
  exact ⟨d, List.mem_of_find?_eq_some hd, rfl⟩

lemma Sound.isNamed_of_mem_sheets (h : o.Sound) : ∀ s ∈ o.sheets, s.IsNamed := by
  intro s hs
  obtain ⟨a, ha, rfl⟩ := mem_agents_of_mem_sheets hs
  refine ⟨(h.agents a ha).isName, fun t ht => ?_, fun e he => ?_⟩
  · obtain ⟨d, hd, rfl⟩ := mem_tools_of_mem_sheetUnder ht
    exact (h.tools d hd).isName
  · obtain ⟨d, hd, rfl⟩ := mem_events_of_mem_sheetUnder he
    exact (h.events d hd).1

lemma Sound.isName_of_mem_typeStates (h : o.Sound) :
    ∀ s ∈ o.typeStates, isName s.label.toList = true := by
  intro s hs
  obtain ⟨d, hd, rfl⟩ := List.mem_map.1 hs
  exact (h.types d hd).1

/-- The sheets of a layout are those of the outline. -/
lemma Sound.sheets_layout (h : o.Sound) : (layout o).sheets = o.sheets := by
  rw [layout, Layout.layoutOn_eq_draw]
  exact Layout.sheets_draw {} h.isNamed_of_mem_sheets h.isName_of_mem_typeStates

lemma Sound.looseStates_layout (h : o.Sound) : (layout o).looseStates = o.typeStates := by
  rw [layout, Layout.layoutOn_eq_draw]
  exact Layout.looseStates_draw {} h.isNamed_of_mem_sheets h.isName_of_mem_typeStates

end Outline

/-! ## Settled sheets -/

/-- A sheet as it comes back: what is empty is left out, and what has a default gets it. -/
def Sheet.settled (s : Sheet) : Sheet where
  agent :=
    ⟨s.agent.label, filled s.agent.description, filled s.agent.version, filled s.agent.model,
      (filled s.agent.model).map fun _ => (filled s.agent.provider).getD defaultProvider⟩
  fields := s.fields.filter (· ≠ [])
  tools := s.tools.map fun t =>
    ⟨t.label, some (String.ofList (trim (t.params.getD "").toList)), filled t.returns,
      filled t.description⟩
  events := s.events.map fun e => ⟨e.label, some (.ofName e.label)⟩

/-- A state as it comes back as a type. -/
def StateContent.settled (s : StateContent) : StateContent :=
  ⟨s.typeName, some ((s.fields.getD []).map required)⟩

lemma filled_filled (value : Option String) : filled (filled value) = filled value := by
  cases value with
  | none => rfl
  | some text =>
    by_cases htext : text = ""
    · subst htext
      rfl
    · have hfilled : filled (some text) = some text := by
        simp [filled, htext]
      rw [hfilled, hfilled]

lemma filled_eq_self {value : Option String} (h : ∀ text ∈ value, text ≠ "") :
    filled value = value := by
  cases value with
  | none => rfl
  | some text => simp [filled, h text rfl]

lemma required_required (f : String) : required (required f) = required f := by
  simp [required]

namespace Sheet

lemma modelLines_settled (s : Sheet) : modelLines s.settled.agent = modelLines s.agent := by
  rw [modelLines, modelLines, settled]
  dsimp only
  rw [filled_filled]
  cases hmodel : filled s.agent.model with
  | none => rfl
  | some model =>
    have hprovider : (filled (some ((filled s.agent.provider).getD defaultProvider))).getD
        defaultProvider = (filled s.agent.provider).getD defaultProvider := by
      cases hfilled : filled s.agent.provider with
      | none => rfl
      | some provider =>
        rw [Option.getD_some, ← hfilled, filled_filled, hfilled, Option.getD_some]
    rw [Option.map_some, hprovider]

lemma toolLines_settled {t : ToolContent} {params : String} (h : params = t.params.getD "") :
    toolLines ⟨t.label, some params, filled t.returns, filled t.description⟩ = toolLines t := by
  rw [toolLines, toolLines]
  dsimp only
  rw [filled_filled, filled_filled, Option.getD_some, h]

/-- A settled sheet is written as the sheet was, if the parameters stood trimmed. -/
lemma lines_settled {s : Sheet} (h : ∀ t ∈ s.tools, trim (t.params.getD "").toList =
    (t.params.getD "").toList) : s.settled.lines = s.lines := by
  have hfields : (s.fields.filter (· ≠ [])).getD [] = s.fields.getD [] := by
    cases s.fields with
    | none => rfl
    | some fields => cases fields <;> rfl
  have htools : s.settled.tools.flatMap toolLines = s.tools.flatMap toolLines := by
    rw [settled, List.flatMap_map]
    refine List.flatMap_congr fun t ht => toolLines_settled ?_
    rw [h t ht, String.ofList_toList]
  have hevents : s.settled.events.flatMap eventLines = s.events.flatMap eventLines := by
    rw [settled, List.flatMap_map]
    rfl
  have hown : s.settled.ownLines = s.ownLines := by
    rw [ownLines, ownLines, modelLines_settled, settled]
    dsimp only
    rw [filled_filled, filled_filled]
  rw [lines, lines, hown, memberLines, memberLines, htools, hevents]
  dsimp only [settled]
  rw [hfields]

end Sheet

namespace StateContent

lemma typeName_settled (s : StateContent) : s.settled.typeName = s.typeName := by
  have hne : s.typeName ≠ "" := by
    unfold typeName
    split
    next => decide
    next h => exact h
  rw [typeName, settled]
  exact if_neg hne

lemma typeBlock?_settled (s : StateContent) : typeBlock? s.settled = typeBlock? s := by
  have hname := s.typeName_settled
  rw [typeName] at hname
  rw [typeBlock?, typeBlock?, hname, settled]
  cases s.fields.getD [] with
  | nil => rfl
  | cons f fields =>
    simp only [Option.getD_some, List.map_cons, List.map_map, Function.comp_def, required_required]
    rfl

end StateContent

/-! ## What a second layout draws -/

namespace Graph

variable {g : Graph}

/-- Tools come back settled. -/
lemma toolsUnder_declared (hnodup : (g.sheets.map (·.agent.label)).Nodup) {s : Sheet}
    (hs : s ∈ g.sheets) :
    g.declared.toolsUnder s.agent.label = s.tools.map (Sheet.toolDecl s.agent.label) := by
  rw [Outline.toolsUnder, declared_tools]
  refine filter_flatMap_key hnodup (fun s' _ d hd => ?_) hs
  obtain ⟨t, -, rfl⟩ := List.mem_map.1 hd
  rfl

lemma eventsUnder_declared (hnodup : (g.sheets.map (·.agent.label)).Nodup) {s : Sheet}
    (hs : s ∈ g.sheets) :
    g.declared.eventsUnder s.agent.label = s.events.map (Sheet.eventDecl s.agent.label) := by
  rw [Outline.eventsUnder, declared_events]
  refine filter_flatMap_key hnodup (fun s' _ d hd => ?_) hs
  obtain ⟨e, -, rfl⟩ := List.mem_map.1 hd
  rfl

lemma stateUnder?_declared (hnodup : (g.sheets.map (·.agent.label)).Nodup) {s : Sheet}
    (hs : s ∈ g.sheets) : g.declared.stateUnder? s.agent.label = s.stateDecls.head? := by
  rw [Outline.stateUnder?, ← List.head?_filter, declared_states]
  refine congrArg List.head? (filter_flatMap_key hnodup (fun s' _ d hd => ?_) hs)
  unfold Sheet.stateDecls at hd
  split at hd
  · cases hd
  · rw [List.mem_singleton.1 hd]

lemma render_stateDecls {s : Sheet} (h : ∀ f ∈ s.fields.getD [], IsField f) :
    s.stateDecls.head?.map (fun d => d.fields.map StateField.render) =
      s.fields.filter (· ≠ []) := by
  rw [Sheet.stateDecls]
  cases hsome : s.fields with
  | none => rfl
  | some fields =>
    cases fields with
    | nil => rfl
    | cons f fields =>
      rw [hsome, Option.getD_some] at h
      rw [Option.getD_some, List.head?_cons, Option.map_some, map_render_stateFields h]
      rfl

/-- Of a regular graph, the sheets come back settled. -/
theorem Regular.sheets_declared (h : g.Regular) :
    g.declared.sheets = g.sheets.map Sheet.settled := by
  have hnodup := h.sheets_labels_nodup
  have hagents : Layout.placedAgents g.declared.agents = g.sheets.map Sheet.agentDecl := by
    rw [declared_agents]
    apply Layout.placedAgents_eq_self
    rw [List.map_map]
    exact hnodup
  rw [Outline.sheets, hagents, List.map_map]
  apply List.map_congr_left
  intro s hs
  have hname : s.agentDecl.name = s.agent.label := rfl
  have hmodel : s.agentDecl.model.bind (·.name) = filled s.agent.model := by
    rw [Sheet.agentDecl]
    cases filled s.agent.model <;> rfl
  have hprovider : s.agentDecl.model.bind (·.provider) = (filled s.agent.model).map fun _ =>
      (filled s.agent.provider).getD defaultProvider := by
    rw [Sheet.agentDecl]
    cases filled s.agent.model <;> rfl
  rw [Function.comp_apply, Outline.sheetUnder, hname, toolsUnder_declared hnodup hs,
    eventsUnder_declared hnodup hs, stateUnder?_declared hnodup hs,
    render_stateDecls (h.isField_of_mem_sheets hs), hmodel, hprovider, List.map_map, List.map_map]
  rfl

/-- Of a regular graph, the states that count for no agent come back settled, if they have fields. -/
theorem Regular.typeStates_declared (h : g.Regular) :
    g.declared.typeStates =
      (g.looseStates.filter fun s => s.fields.getD [] ≠ []).map StateContent.settled := by
  have hpairs := map_render_types (fun s hs => h.isField_of_mem_looseStates hs)
    (map_declared_types g.looseStates)
  have hstate := congrArg (List.map fun p : String × List String =>
    (⟨p.1, some p.2⟩ : StateContent)) hpairs
  rw [List.map_map, List.map_map, ← declared_types] at hstate
  exact hstate

/-- **A second layout settles the sheets.**  Laying out what was read from the script of a regular
graph draws the sheets of the graph, settled, and the states with fields that count for no agent. -/
theorem Regular.layout_outline (h : g.Regular) :
    layout (outline g.script) = Layout.draw {} (g.sheets.map Sheet.settled)
      ((g.looseStates.filter fun s => s.fields.getD [] ≠ []).map StateContent.settled) := by
  rw [layout, Layout.layoutOn_eq_draw, ← Outline.sheets_unplaced, ← Outline.typeStates_unplaced,
    h.unplaced_outline.1, h.sheets_declared, h.typeStates_declared]

lemma script_eq_of_blocks_eq {g g' : Graph} (h : blocks g = blocks g') : g.script = g'.script := by
  rw [script, script, h]

/-- The script of a regular graph is a fixed point, if the parameters stand trimmed. -/
theorem Regular.script_layout_outline (h : g.Regular)
    (htrim : ∀ s ∈ g.sheets, ∀ t ∈ s.tools,
      trim (t.params.getD "").toList = (t.params.getD "").toList) :
    (layout (outline g.script)).script = g.script := by
  have hsound := sound_outline g.script
  have hsheets : (layout (outline g.script)).sheets = g.sheets.map Sheet.settled := by
    rw [hsound.sheets_layout, ← Outline.sheets_unplaced, h.unplaced_outline.1, h.sheets_declared]
  have hstates : (layout (outline g.script)).looseStates =
      (g.looseStates.filter fun s => s.fields.getD [] ≠ []).map StateContent.settled := by
    rw [hsound.looseStates_layout, ← Outline.typeStates_unplaced, h.unplaced_outline.1,
      h.typeStates_declared]
  have hlines : (g.sheets.map Sheet.settled).map Sheet.lines = g.sheets.map Sheet.lines := by
    rw [List.map_map]
    exact List.map_congr_left fun s hs => Sheet.lines_settled (htrim s hs)
  have htypes : ((g.looseStates.filter fun s => s.fields.getD [] ≠ []).map
      StateContent.settled).filterMap typeBlock? = g.looseStates.filterMap typeBlock? := by
    rw [List.filterMap_map, List.filterMap_filter]
    refine congrArg (g.looseStates.filterMap ·) (funext fun s => ?_)
    rw [Function.comp_apply, StateContent.typeBlock?_settled]
    cases hfields : s.fields.getD [] with
    | nil =>
      rw [typeBlock?, hfields]
      rfl
    | cons f fields => simp
  have hblocks : blocks (layout (outline g.script)) = blocks g := by
    rw [blocks_eq, blocks_eq, hsheets, hstates, hlines, htypes]
  exact script_eq_of_blocks_eq hblocks

end Graph

/-! ## Graphs of texts -/

namespace Outline

variable {o : Outline}

/-- What the nodes of a layout say comes of a sheet or of a type. -/
lemma mem_layout {n : Node} (hn : n ∈ (layout o).nodes) :
    (∃ s ∈ o.sheets, n.content = .agent s.agent ∨ n.content ∈ Layout.contentsOf s) ∨
      ∃ s ∈ o.typeStates, n.content = .state s := by
  have hcontent : n.content ∈ (layout o).nodes.map (·.content) := List.mem_map_of_mem hn
  rw [layout, Layout.layoutOn_eq_draw, Layout.map_content_draw, List.mem_append,
    List.mem_flatMap] at hcontent
  rcases hcontent with ⟨s, hs, hcontent⟩ | hcontent
  · exact .inl ⟨s, hs, List.mem_cons.1 hcontent⟩
  · obtain ⟨s, hs, hstate⟩ := List.mem_map.1 hcontent
    exact .inr ⟨s, hs, hstate.symm⟩

lemma exists_tool_of_mem_layout {n : Node} (hn : n ∈ (layout o).nodes) {t : ToolContent}
    (ht : n.content = .tool t) :
    ∃ d ∈ o.tools, t = ⟨d.name, some d.params, d.returns, d.description⟩ := by
  rcases mem_layout hn with ⟨s, hs, hcontent⟩ | ⟨s, -, hcontent⟩
  · obtain ⟨a, -, rfl⟩ := mem_agents_of_mem_sheets hs
    rw [ht, Layout.mem_contentsOf] at hcontent
    rcases hcontent with hcontent | ⟨t', ht', hsame⟩ | ⟨e, -, hsame⟩ | ⟨fields, -, hsame⟩
    · cases hcontent
    · obtain rfl := Content.tool.inj hsame
      exact mem_tools_of_mem_sheetUnder ht'
    · cases hsame
    · cases hsame
  · rw [ht] at hcontent
    cases hcontent

/-- The fields of the states of a layout are those of a state or of a type that was read. -/
lemma exists_fields_of_mem_layout {n : Node} (hn : n ∈ (layout o).nodes) {s : StateContent}
    (hs : n.content = .state s) :
    (∃ d ∈ o.states, s.fields = some (d.fields.map StateField.render)) ∨
      ∃ d ∈ o.types, s.fields = some (d.fields.map TypeField.render) := by
  rcases mem_layout hn with ⟨sheet, hsheet, hcontent⟩ | ⟨s', hs', hcontent⟩
  · obtain ⟨a, -, rfl⟩ := mem_agents_of_mem_sheets hsheet
    rw [hs, Layout.mem_contentsOf] at hcontent
    rcases hcontent with hcontent | ⟨t, -, hsame⟩ | ⟨e, -, hsame⟩ | ⟨fields, hfields, hsame⟩
    · cases hcontent
    · cases hsame
    · cases hsame
    · obtain rfl := Content.state.inj hsame
      obtain ⟨d, hd, rfl⟩ := mem_states_of_mem_sheetUnder hfields
      exact .inl ⟨d, hd, rfl⟩
  · rw [hs] at hcontent
    obtain rfl := Content.state.inj hcontent
    obtain ⟨d, hd, rfl⟩ := List.mem_map.1 hs'
    exact .inr ⟨d, hd, rfl⟩

lemma newline_not_mem_fieldKey {name : String} (hname : isName name.toList = true)
    (optional : Bool) : '\n' ∉ fieldKey name optional := by
  intro hmem
  rw [fieldKey, List.mem_append, List.mem_append] at hmem
  rcases hmem with (hmem | hmem) | hmem
  · exact newline_not_mem_of_isName hname hmem
  · cases optional <;> revert hmem <;> decide
  · revert hmem
    decide

/-- A field that was read is spelled as a field, on one line. -/
lemma isField_render {f : StateField} (h : SoundField f.name f.type) :
    IsField f.render ∧ '\n' ∉ f.render.toList := by
  refine ⟨⟨f, h.1, rfl⟩, fun hmem => ?_⟩
  rw [toList_render_stateField, List.mem_append] at hmem
  rcases hmem with hmem | hmem
  · exact newline_not_mem_fieldKey h.1.isName f.optional hmem
  · exact h.2 hmem

/-- The fields of the states of a layout were read as fields. -/
lemma Sound.isField_of_mem_layout (h : o.Sound) {n : Node} (hn : n ∈ (layout o).nodes)
    {s : StateContent} (hs : n.content = .state s) :
    ∀ f ∈ s.fields.getD [], IsField f ∧ '\n' ∉ f.toList := by
  intro f hf
  rcases exists_fields_of_mem_layout hn hs with ⟨d, hd, hfields⟩ | ⟨d, hd, hfields⟩
  · rw [hfields, Option.getD_some] at hf
    obtain ⟨field, hmem, rfl⟩ := List.mem_map.1 hf
    exact isField_render (h.states d hd field hmem)
  · rw [hfields, Option.getD_some] at hf
    obtain ⟨field, hmem, rfl⟩ := List.mem_map.1 hf
    have hfield : SoundField field.name field.type := (h.types d hd).2 field hmem
    rw [render_typeField]
    exact isField_render (f := ⟨field.name, field.type, false⟩) hfield

/-- The agents of a layout are told apart by their labels. -/
lemma Sound.labels_nodup (h : o.Sound) :
    (((layout o).nodes.filterMap (·.content.agent?)).map (·.label)).Nodup := by
  have hsheets : o.sheets.map (·.agent.label) = (Layout.placedAgents o.agents).map (·.name) := by
    rw [sheets, List.map_map]
    rfl
  have hagents : (layout o).agentSheets.map (·.agent.label) = o.sheets.map (·.agent.label) := by
    rw [layout, Layout.layoutOn_eq_draw]
    obtain ⟨stars, loose, hstars, hsame, -⟩ :=
      Layout.exists_stars_draw {} h.isNamed_of_mem_sheets h.isName_of_mem_typeStates
    rw [hstars.agentSheets_eq, hsame]
  rw [← Graph.agentSheets_labels, hagents, hsheets]
  exact Layout.nodup_placedAgents o.agents

/-- The layout of a sound outline is regular, if nothing is found in it. -/
theorem Sound.regular_layout (h : o.Sound) (hlint : (layout o).lint = [])
    (hparams : ∀ d ∈ o.tools, PlainParams d.params) : (layout o).Regular where
  lint_eq_nil := hlint
  labels_nodup := h.labels_nodup
  params := by
    intro n hn t ht params hmem
    obtain ⟨d, hd, rfl⟩ := exists_tool_of_mem_layout hn ht
    obtain rfl := Option.some.inj hmem
    exact ⟨hparams d hd, (h.tools d hd).params.2.2⟩
  returns := by
    intro n hn t ht type hmem
    obtain ⟨d, hd, rfl⟩ := exists_tool_of_mem_layout hn ht
    exact ((h.tools d hd).returns type hmem).2
  fields := fun n hn s hs => h.isField_of_mem_layout hn hs

lemma Sound.trim_params (h : o.Sound) : ∀ s ∈ o.sheets, ∀ t ∈ s.tools,
    trim (t.params.getD "").toList = (t.params.getD "").toList := by
  intro s hs t ht
  obtain ⟨a, -, rfl⟩ := mem_agents_of_mem_sheets hs
  obtain ⟨d, hd, rfl⟩ := mem_tools_of_mem_sheetUnder ht
  exact (h.tools d hd).params.1

/-- The agent of a sound outline is settled but for a provider. -/
lemma Sound.settled_agent (h : o.Sound) {a : AgentDecl} (ha : a ∈ o.agents)
    (hprovider : (o.sheetUnder a).agent.provider.isSome = (o.sheetUnder a).agent.model.isSome) :
    (o.sheetUnder a).settled.agent = (o.sheetUnder a).agent := by
  have hagent := h.agents a ha
  have hname : ∀ name ∈ a.model.bind (·.name), name ≠ "" := by
    intro name hmem
    obtain ⟨m, hm, hname⟩ := Option.bind_eq_some_iff.1 hmem
    exact (hagent.model m hm).1 name hname
  have hgiven : ∀ provider ∈ a.model.bind (·.provider), provider ≠ "" := by
    intro provider hmem
    obtain ⟨m, hm, hprovider⟩ := Option.bind_eq_some_iff.1 hmem
    exact (hagent.model m hm).2 provider hprovider
  have hmodel : ((a.model.bind (·.name)).map fun _ =>
      (a.model.bind (·.provider)).getD defaultProvider) = a.model.bind (·.provider) := by
    dsimp only [sheetUnder] at hprovider
    cases hname : a.model.bind (·.name) <;> cases hgiven : a.model.bind (·.provider) <;>
      rw [hname, hgiven] at hprovider <;> first | rfl | cases hprovider
  dsimp only [Sheet.settled, sheetUnder]
  rw [filled_eq_self hagent.description, filled_eq_self hagent.version, filled_eq_self hname,
    filled_eq_self hgiven, hmodel]

lemma Sound.settled_tools (h : o.Sound) {a : AgentDecl} (ha : o.sheetUnder a ∈ o.sheets) :
    (o.sheetUnder a).settled.tools = (o.sheetUnder a).tools := by
  refine (List.map_congr_left fun t ht => ?_).trans (List.map_id _)
  rw [h.trim_params _ ha t ht, String.ofList_toList]
  obtain ⟨d, hd, rfl⟩ := mem_tools_of_mem_sheetUnder ht
  have hreturns : ∀ type ∈ d.returns, type ≠ "" := by
    rintro type hmem rfl
    have htype := ((h.tools d hd).returns "" hmem).1
    revert htype
    decide
  rw [filled_eq_self hreturns, filled_eq_self (h.tools d hd).description]
  rfl

lemma Sound.settled_events (h : o.Sound) (a : AgentDecl) :
    (o.sheetUnder a).settled.events = (o.sheetUnder a).events := by
  refine (List.map_congr_left fun e he => ?_).trans (List.map_id _)
  obtain ⟨d, hd, rfl⟩ := mem_events_of_mem_sheetUnder he
  rw [← (h.events d hd).2]
  rfl

/-- A sheet of a sound outline is settled but for a provider and an empty list of fields. -/
lemma Sound.settled_eq_self (h : o.Sound) {s : Sheet} (hs : s ∈ o.sheets)
    (hfields : s.fields ≠ some []) (hprovider : s.agent.provider.isSome = s.agent.model.isSome) :
    s.settled = s := by
  have hsettled : s.settled.fields = s.fields := by
    rw [Sheet.settled]
    cases hsome : s.fields with
    | none => rfl
    | some fields =>
      cases fields with
      | nil => exact absurd hsome hfields
      | cons f fields => rfl
  obtain ⟨a, ha, rfl⟩ := mem_agents_of_mem_sheets hs
  calc (o.sheetUnder a).settled
      = ⟨(o.sheetUnder a).settled.agent, (o.sheetUnder a).settled.fields,
          (o.sheetUnder a).settled.tools, (o.sheetUnder a).settled.events⟩ := rfl
    _ = o.sheetUnder a := by
      rw [h.settled_agent ha hprovider, hsettled, h.settled_tools hs, h.settled_events]

/-- A type of a sound outline is settled. -/
lemma Sound.settled_typeState (h : o.Sound) {s : StateContent} (hs : s ∈ o.typeStates) :
    s.settled = s := by
  obtain ⟨d, hd, rfl⟩ := List.mem_map.1 hs
  obtain ⟨hname, hfields⟩ := h.types d hd
  have hne : d.name ≠ "" := by
    intro hempty
    rw [hempty] at hname
    revert hname
    decide
  have hrequired : (d.fields.map TypeField.render).map required = d.fields.map TypeField.render := by
    rw [List.map_map]
    apply List.map_congr_left
    intro f hf
    have hfield := render_typeField f
    have hwritable : Writable (StateField.mk f.name f.type false).name
      (StateField.mk f.name f.type false).type := (hfields f hf).1
    rw [Function.comp_apply, hfield, required_render hwritable, ← hfield]
  rw [StateContent.settled, StateContent.typeName, if_neg hne, Option.getD_some, hrequired]

/-- What a sheet says is said by some node of the layout. -/
lemma exists_node_of_mem_sheets {s : Sheet} (hs : s ∈ o.sheets) {content : Content}
    (h : content = .agent s.agent ∨ content ∈ Layout.contentsOf s) :
    ∃ n ∈ (layout o).nodes, n.content = content := by
  rw [← List.mem_map, layout, Layout.layoutOn_eq_draw, Layout.map_content_draw]
  exact List.mem_append_left _ (List.mem_flatMap.2 ⟨s, hs, List.mem_cons.2 h⟩)

lemma exists_node_of_mem_typeStates {s : StateContent} (hs : s ∈ o.typeStates) :
    ∃ n ∈ (layout o).nodes, n.content = .state s := by
  rw [← List.mem_map, layout, Layout.layoutOn_eq_draw, Layout.map_content_draw]
  exact List.mem_append_right _ (List.mem_map_of_mem hs)

end Outline

namespace Graph

/-- A graph in which nothing is left to settle. -/
structure Complete (g : Graph) : Prop where
  /-- Every state has a field. -/
  fields : ∀ n ∈ g.nodes, ∀ s ∈ n.content.state?, s.fields.getD [] ≠ []
  /-- Every agent has a provider exactly if it has a model. -/
  provider : ∀ n ∈ g.nodes, ∀ a ∈ n.content.agent?, a.provider.isSome = true ↔ a.model.isSome = true

variable {o : Outline}

lemma Complete.settled_sheets (h : (layout o).Complete) (hsound : o.Sound) :
    o.sheets.map Sheet.settled = o.sheets := by
  refine (List.map_congr_left fun s hs => ?_).trans (List.map_id _)
  refine hsound.settled_eq_self hs (fun hempty => ?_) ?_
  · have hmem : Content.state ⟨Layout.stateLabel, some []⟩ ∈ Layout.contentsOf s :=
      Layout.mem_contentsOf.2 (.inr (.inr ⟨[], hempty, rfl⟩))
    obtain ⟨n, hn, hcontent⟩ := Outline.exists_node_of_mem_sheets hs (.inr hmem)
    refine h.fields n hn ⟨Layout.stateLabel, some []⟩ ?_ rfl
    rw [hcontent]
    rfl
  · obtain ⟨n, hn, hcontent⟩ := Outline.exists_node_of_mem_sheets hs (.inl rfl)
    refine Bool.eq_iff_iff.2 (h.provider n hn s.agent ?_)
    rw [hcontent]
    rfl

lemma Complete.settled_typeStates (h : (layout o).Complete) (hsound : o.Sound) :
    (o.typeStates.filter fun s => s.fields.getD [] ≠ []).map StateContent.settled =
      o.typeStates := by
  have hall : (o.typeStates.filter fun s => s.fields.getD [] ≠ []) = o.typeStates := by
    apply List.filter_eq_self.2
    intro s hs
    obtain ⟨n, hn, hcontent⟩ := Outline.exists_node_of_mem_typeStates hs
    rw [decide_eq_true_eq]
    apply h.fields n hn s
    rw [hcontent]
    rfl
  rw [hall]
  exact (List.map_congr_left fun s hs => hsound.settled_typeState hs).trans (List.map_id _)

end Graph

/-- **Regeneration is a fixed point.**  Where nothing is found in the graph of a text, reading the
script of the graph finds nothing but members that are declared again, and the graph of what was read
has the same script.  If nothing is left to settle, it is the same graph. -/
theorem regenerates (text : String) (hlint : (layout (outline text)).lint = [])
    (hparams : ∀ d ∈ (outline text).tools, PlainParams d.params) :
    (∀ d ∈ (outline (layout (outline text)).script).diagnostics, IsRepeatedMember d) ∧
      (layout (outline (layout (outline text)).script)).script = (layout (outline text)).script ∧
      ((layout (outline text)).Complete →
        layout (outline (layout (outline text)).script) = layout (outline text)) := by
  have hsound := sound_outline text
  have hregular := hsound.regular_layout hlint hparams
  refine ⟨hregular.unplaced_outline.2, ?_, fun hcomplete => ?_⟩
  · apply hregular.script_layout_outline
    rw [hsound.sheets_layout]
    exact hsound.trim_params
  · rw [hregular.layout_outline, hsound.sheets_layout, hsound.looseStates_layout,
      hcomplete.settled_sheets hsound, hcomplete.settled_typeStates hsound, layout,
      Layout.layoutOn_eq_draw]

/-- A text with a tool that is declared again, and with fields and clauses on one line. -/
def sampleText : String :=
  "agent Main \x7b\ntool find(query: string) -> Map<string, number> \x7b\x7d\n" ++
    "tool find() \x7b\x7d\nstate \x7b seen?: string \x7d\n" ++
    "model \x7b provider: \"local\" name: \"opus\" \x7d\n\x7d\ntype Pair \x7b left: string \x7d\n"

-- One evaluation for all four facts: each needs the whole layout.
lemma facts_sampleText :
    (layout (outline sampleText)).lint = [] ∧
      (outline sampleText).tools.map (·.params) = ["query: string", ""] ∧
      (∀ n ∈ (layout (outline sampleText)).nodes, ∀ s ∈ n.content.state?, s.fields.getD [] ≠ []) ∧
      ∀ n ∈ (layout (outline sampleText)).nodes, ∀ a ∈ n.content.agent?,
        a.provider.isSome = true ↔ a.model.isSome = true := by
  decide +kernel

lemma complete_sampleText : (layout (outline sampleText)).Complete :=
  ⟨facts_sampleText.2.2.1, facts_sampleText.2.2.2⟩

lemma plainParams_sampleText : ∀ d ∈ (outline sampleText).tools, PlainParams d.params := by
  intro d hd
  have hmem : d.params ∈ ["query: string", ""] :=
    facts_sampleText.2.1 ▸ List.mem_map_of_mem hd
  rcases List.mem_cons.1 hmem with hfirst | hmem
  · rw [hfirst]
    exact ⟨.of_not_mem (by decide) (by decide), by decide⟩
  · rw [List.mem_singleton.1 hmem]
    exact ⟨.of_not_mem (by decide) (by decide), by decide⟩

/-- The sample is regenerated as it is. -/
theorem regenerates_sampleText :
    (layout (outline sampleText)).lint = [] ∧
      (∀ d ∈ (outline sampleText).tools, PlainParams d.params) ∧
      (layout (outline sampleText)).Complete ∧
      (∀ d ∈ (outline (layout (outline sampleText)).script).diagnostics, IsRepeatedMember d) ∧
      (layout (outline (layout (outline sampleText)).script)).script =
        (layout (outline sampleText)).script ∧
      layout (outline (layout (outline sampleText)).script) = layout (outline sampleText) :=
  have h := regenerates sampleText facts_sampleText.1 plainParams_sampleText
  ⟨facts_sampleText.1, plainParams_sampleText, complete_sampleText, h.1, h.2.1,
    h.2.2 complete_sampleText⟩

end AgentScript
