import AgentScript.Proofs.Graph.RoundTrip

/-!
# What comes back of a graph without findings

Every graph has a canonical script, and its lint tells what would not be read back.  It does not
look for everything, though, even of what is written as it is.  A quote or a comment sign in the
parameters of a tool hides the brace behind them from the search for the agent's clauses, which
counts braces line by line: the search then takes the description of the tool for that of the agent.
Line breaks in signatures end a header.  And fields are not looked at, so one of them may be no
field, or close the body it stands in.  What is not written cannot come back either, such as the
provider of an agent that asks for no model.

A graph is *legible* if it has no findings, if the brace of every tool with a description counts,
and if signatures and fields keep to their lines.  Then every line is read by the rule it was
written for: no error is found, agents, tools and event handlers come back with what is not empty of
their values, and every field that is one comes back as it was spelled (`Graph.Legible.restored`).
Parameters may hold any other character, quotes and braces included, agents may share a name, and
what is no field does no harm to what is.
-/

namespace AgentScript

open Canonical Script Text

/-- A graph without findings whose lines are read as what they were written for. -/
structure Graph.Legible (g : Graph) : Prop where
  /-- Nothing is found in the graph. -/
  lint_eq_nil : g.lint = []
  params : ∀ n ∈ g.nodes, ∀ t, n.content = .tool t → ∀ params ∈ t.params, '\n' ∉ params.toList
  returns : ∀ n ∈ g.nodes, ∀ t, n.content = .tool t → ∀ type ∈ t.returns, '\n' ∉ type.toList
  /-- The header of a tool with a description opens a brace, outside literals and comments. -/
  opens : ∀ n ∈ g.nodes, ∀ t, n.content = .tool t → filled t.description ≠ none →
    0 < netBraces t.headerLine.toList
  /-- The fields of a state that counts for an agent, which are written as they are. -/
  stateFields : ∀ n ∈ g.nodes, ∀ s, n.content = .state s → g.links.isAgentState n.id = true →
    ∀ f ∈ s.fields.getD [], IsBodyLine f
  /-- The fields of a state that counts for no agent, which are written without question marks. -/
  typeFields : ∀ n ∈ g.nodes, ∀ s, n.content = .state s → g.links.isAgentState n.id = false →
    ∀ f ∈ s.fields.getD [], IsBodyLine (required f)

variable {g : Graph}

/-! ## What the lint of a graph tells -/

lemma causes_eq_nil (h : g.lint = []) : Lint.causes g = [] := List.map_eq_nil_iff.1 h

lemma unreadable_eq_nil (h : g.lint = []) {n : Node} (hn : n ∈ g.nodes) :
    Lint.unreadable g.links n = [] := by
  have hcauses := causes_eq_nil h
  rw [Lint.causes, List.append_eq_nil_iff] at hcauses
  exact List.flatMap_eq_nil_iff.1 hcauses.2 n hn

lemma isName_of_lint (h : g.lint = []) {n : Node} (hn : n ∈ g.nodes)
    (hnamed : Lint.isNamed g.links n = true) : isName n.label.toList = true := by
  have hnode := unreadable_eq_nil h hn
  rw [Lint.unreadable, List.append_eq_nil_iff] at hnode
  by_contra hname
  rw [Bool.not_eq_true] at hname
  have hfirst := hnode.1
  rw [hnamed, hname, if_pos (by decide)] at hfirst
  cases hfirst

/-- Only a state may go without a name. -/
lemma isName_of_lint_of_kind (h : g.lint = []) {n : Node} (hn : n ∈ g.nodes)
    (hkind : n.kind ≠ .state) : isName n.label.toList = true :=
  isName_of_lint h hn (by simp [Lint.isNamed, hkind])

lemma breaksQuotes_of_badValue {n : Node} {field : String} {value : Option String}
    (h : Lint.badValue n field value = []) : ∀ text ∈ value, Lint.breaksQuotes text = false := by
  intro text htext
  by_contra hbreaks
  rw [Bool.not_eq_false] at hbreaks
  have hany : value.any Lint.breaksQuotes = true := by
    rw [Option.mem_def.1 htext]
    exact hbreaks
  rw [Lint.badValue, if_pos hany] at h
  cases h

/-- The values of an agent without findings come back from between their quotes. -/
lemma agent_values_of_lint (h : g.lint = []) {n : Node} (hn : n ∈ g.nodes) {a : AgentContent}
    (ha : n.content = .agent a) :
    isName a.label.toList = true ∧ (∀ text ∈ a.description, Lint.breaksQuotes text = false) ∧
      (∀ text ∈ a.version, Lint.breaksQuotes text = false) ∧
      (∀ text ∈ a.model, Lint.breaksQuotes text = false) ∧
      ∀ text ∈ a.provider, Lint.breaksQuotes text = false := by
  have hname := isName_of_lint_of_kind h hn (by simp [Node.kind, ha, Content.kind])
  rw [Node.label, ha] at hname
  have hnode := unreadable_eq_nil h hn
  rw [Lint.unreadable, List.append_eq_nil_iff, ha] at hnode
  simp only [List.append_eq_nil_iff] at hnode
  obtain ⟨-, ⟨⟨hdescription, hversion⟩, hmodel⟩, hprovider⟩ := hnode
  exact ⟨hname, breaksQuotes_of_badValue hdescription, breaksQuotes_of_badValue hversion,
    breaksQuotes_of_badValue hmodel, breaksQuotes_of_badValue hprovider⟩

/-- The values of a tool without findings come back from its signature and between their quotes. -/
lemma tool_values_of_lint (h : g.lint = []) {n : Node} (hn : n ∈ g.nodes) {t : ToolContent}
    (ht : n.content = .tool t) :
    isName t.label.toList = true ∧ (∀ params ∈ t.params, ')' ∉ params.toList) ∧
      (∀ type ∈ filled t.returns, isType type.toList = true) ∧
      ∀ text ∈ t.description, Lint.breaksQuotes text = false := by
  have hname := isName_of_lint_of_kind h hn (by simp [Node.kind, ht, Content.kind])
  rw [Node.label, ht] at hname
  have hnode := unreadable_eq_nil h hn
  rw [Lint.unreadable, List.append_eq_nil_iff, ht] at hnode
  simp only [List.append_eq_nil_iff, Lint.badSignature] at hnode
  obtain ⟨-, ⟨hparams, hreturns⟩, hdescription⟩ := hnode
  refine ⟨hname, fun params hmem hparen => ?_, fun type hmem => ?_,
    breaksQuotes_of_badValue hdescription⟩
  · have hany : t.params.any (·.toList.contains ')') = true := by
      rw [Option.mem_def.1 hmem]
      simpa using hparen
    rw [if_pos hany] at hparams
    cases hparams
  · obtain ⟨hmem, hne⟩ := mem_filled.1 hmem
    by_contra htype
    rw [Option.mem_def.1 hmem, Option.getD_some, if_pos ⟨hne, by simpa using htype⟩] at hreturns
    cases hreturns

/-! ## Links lead to nodes -/

lemma exists_node_of_node? {id : String} {n : Node} (h : g.node? id = some n) :
    n ∈ g.nodes ∧ n.id = id :=
  ⟨List.mem_of_find?_eq_some h, by simpa using List.find?_some h⟩

/-- The member of a link is a node with the content the link has. -/
lemma exists_node_of_mem_links {l : Link} (h : l ∈ g.links) :
    ∃ n ∈ g.nodes, n.id = l.member ∧ n.content = l.content := by
  rw [Graph.links, List.mem_filterMap] at h
  obtain ⟨e, -, hlink⟩ := h
  unfold Graph.link? at hlink
  split at hlink
  next s t hs ht =>
    have hsource := exists_node_of_node? hs
    have htarget := exists_node_of_node? ht
    split at hlink
    · split at hlink
      · cases hlink
      · obtain rfl := Option.some.inj hlink
        exact ⟨t, htarget.1, rfl, rfl⟩
    · split at hlink
      · obtain rfl := Option.some.inj hlink
        exact ⟨s, hsource.1, rfl, rfl⟩
      · cases hlink
  next => cases hlink

lemma mem_links_of_mem_of {ls : Links} {agent : String} {l : Link} (h : l ∈ ls.of agent) :
    l ∈ ls := by
  rw [Links.of, List.mem_eraseDups] at h
  exact List.mem_of_mem_filter h

lemma tool?_eq_some {c : Content} {t : ToolContent} (h : c.tool? = some t) : c = .tool t := by
  cases c <;> cases h
  rfl

lemma event?_eq_some {c : Content} {e : EventContent} (h : c.event? = some e) : c = .event e := by
  cases c <;> cases h
  rfl

lemma state?_eq_some {c : Content} {s : StateContent} (h : c.state? = some s) : c = .state s := by
  cases c <;> cases h
  rfl

lemma agent?_eq_some {c : Content} {a : AgentContent} (h : c.agent? = some a) : c = .agent a := by
  cases c <;> cases h
  rfl

/-- What a link gives to an agent is the content of some node. -/
lemma exists_node_of_toolsUnder {agent : String} {t : ToolContent}
    (h : t ∈ g.links.toolsUnder agent) : ∃ n ∈ g.nodes, n.content = .tool t := by
  obtain ⟨l, hl, ht⟩ := List.mem_filterMap.1 h
  obtain ⟨n, hn, -, hcontent⟩ := exists_node_of_mem_links (mem_links_of_mem_of hl)
  exact ⟨n, hn, hcontent.trans (tool?_eq_some ht)⟩

lemma exists_node_of_eventsUnder {agent : String} {e : EventContent}
    (h : e ∈ g.links.eventsUnder agent) : ∃ n ∈ g.nodes, n.content = .event e := by
  obtain ⟨l, hl, he⟩ := List.mem_filterMap.1 h
  obtain ⟨n, hn, -, hcontent⟩ := exists_node_of_mem_links (mem_links_of_mem_of hl)
  exact ⟨n, hn, hcontent.trans (event?_eq_some he)⟩

lemma exists_node_of_stateUnder? {agent : String} {l : Link} {s : StateContent}
    (h : g.links.stateUnder? agent = some l) (hs : l.content.state? = some s) :
    ∃ n ∈ g.nodes, n.content = .state s ∧ g.links.isAgentState n.id = true := by
  have hmem := List.mem_of_getLast? h
  have hl := List.mem_of_mem_filter hmem
  obtain ⟨n, hn, hid, hcontent⟩ := exists_node_of_mem_links hl
  have hagent : l.agent = agent := by
    have hkeys := (List.mem_filter.1 hmem).2
    simp only [Bool.and_eq_true, beq_iff_eq] at hkeys
    exact hkeys.1
  have hagents : agent ∈ g.links.agents := by
    rw [Links.agents, List.mem_eraseDups]
    exact List.mem_map.2 ⟨l, hl, hagent⟩
  refine ⟨n, hn, hcontent.trans (state?_eq_some hs), ?_⟩
  rw [Links.isAgentState, List.any_eq_true]
  exact ⟨agent, hagents, by simp [h, hid]⟩

/-- The fields of a sheet are those of a state that counts for an agent. -/
lemma exists_node_of_mem_fields {id : String} {a : AgentContent} {f : String}
    (h : f ∈ (Sheet.under g.links id a).fields.getD []) :
    ∃ n ∈ g.nodes, ∃ s, n.content = .state s ∧ g.links.isAgentState n.id = true ∧
      f ∈ s.fields.getD [] := by
  dsimp only [Sheet.under] at h
  cases hlink : g.links.stateUnder? id with
  | none =>
    rw [hlink] at h
    cases h
  | some l =>
    cases hstate : l.content.state? with
    | none =>
      rw [hlink, Option.bind_some, hstate] at h
      cases h
    | some s =>
      obtain ⟨n, hn, hcontent, hcounts⟩ := exists_node_of_stateUnder? hlink hstate
      rw [hlink, Option.bind_some, hstate, Option.bind_some] at h
      exact ⟨n, hn, s, hcontent, hcounts, h⟩

/-- A sheet is that of an agent, or the one that holds the tools of a graph without agents. -/
lemma mem_sheets {s : Sheet} (hs : s ∈ g.sheets) :
    (∃ n ∈ g.nodes, ∃ a, n.content = .agent a ∧ s = Sheet.under g.links n.id a) ∨
      s = Sheet.placeholder (looseTools g.links g.nodes) := by
  unfold Graph.sheets at hs
  split at hs
  · split at hs
    next => cases hs
    next htools => exact .inr (List.mem_singleton.1 hs)
  · obtain ⟨n, hn, hs⟩ := List.mem_filterMap.1 hs
    rw [Option.map_eq_some_iff] at hs
    obtain ⟨a, ha, rfl⟩ := hs
    exact .inl ⟨n, hn, a, agent?_eq_some ha, rfl⟩

namespace Graph.Legible

variable (h : g.Legible)
include h

/-- The tools of a legible graph come back. -/
lemma readable_tool {n : Node} (hn : n ∈ g.nodes) {t : ToolContent} (ht : n.content = .tool t) :
    t.Readable := by
  obtain ⟨hname, hparams, hreturns, hdescription⟩ := tool_values_of_lint h.lint_eq_nil hn ht
  refine ⟨hname, fun params hmem => ?_, fun type hmem => ?_, hdescription, h.opens n hn t ht⟩
  · exact ⟨hparams params hmem, h.params n hn t ht params hmem⟩
  · exact ⟨hreturns type hmem, h.returns n hn t ht type (mem_filled.1 hmem).1⟩

lemma isName_event {n : Node} (hn : n ∈ g.nodes) {e : EventContent} (he : n.content = .event e) :
    isName e.label.toList = true := by
  have hname := isName_of_lint_of_kind h.lint_eq_nil hn (by simp [Node.kind, he, Content.kind])
  rwa [Node.label, he] at hname

/-! ## The sheets of a legible graph -/

lemma readable_under {n : Node} (hn : n ∈ g.nodes) {a : AgentContent} (ha : n.content = .agent a) :
    (Sheet.under g.links n.id a).Readable := by
  obtain ⟨hname, hdescription, hversion, hmodel, hprovider⟩ :=
    agent_values_of_lint h.lint_eq_nil hn ha
  refine ⟨hname, hdescription, hversion, hmodel, hprovider, fun f hf => ?_, fun t ht => ?_,
    fun e he => ?_⟩
  · obtain ⟨m, hm, state, hcontent, hcounts, hf⟩ := exists_node_of_mem_fields hf
    exact h.stateFields m hm state hcontent hcounts f hf
  · obtain ⟨m, hm, hcontent⟩ := exists_node_of_toolsUnder ht
    exact h.readable_tool hm hcontent
  · obtain ⟨m, hm, hcontent⟩ := exists_node_of_eventsUnder he
    exact h.isName_event hm hcontent

lemma readable_placeholder :
    (Sheet.placeholder (looseTools g.links g.nodes)).Readable := by
  have hname : isName placeholderAgent.toList = true := by decide
  have hdescription : Lint.breaksQuotes placeholderDescription = false := by decide
  have hnone : ∀ text ∈ (none : Option String), Lint.breaksQuotes text = false :=
    fun _ h => by cases h
  refine ⟨hname, fun text htext => ?_, hnone, hnone, hnone, fun f hf => ?_, fun t ht => ?_,
    fun e he => ?_⟩
  · obtain rfl := Option.some.inj htext
    exact hdescription
  · cases hf
  · obtain ⟨n, hn, ht⟩ := List.mem_filterMap.1 ht
    exact h.readable_tool (List.mem_of_mem_filter hn) (tool?_eq_some ht)
  · cases he

/-- Every sheet of a legible graph comes back. -/
lemma readable_sheet {s : Sheet} (hs : s ∈ g.sheets) : s.Readable := by
  rcases mem_sheets hs with ⟨n, hn, a, ha, rfl⟩ | rfl
  · exact h.readable_under hn ha
  · exact h.readable_placeholder

/-- Every state of a legible graph that counts for no agent comes back as a type. -/
lemma readable_looseState {s : StateContent} (hs : s ∈ g.looseStates) : s.Readable := by
  obtain ⟨n, hn, hstate⟩ := List.mem_filterMap.1 hs
  obtain ⟨hn, hloose⟩ := List.mem_filter.1 hn
  rw [Bool.not_eq_true'] at hloose
  have hcontent := state?_eq_some hstate
  refine ⟨?_, h.typeFields n hn s hcontent hloose⟩
  rw [StateContent.typeName]
  by_cases hlabel : s.label = ""
  · rw [if_pos hlabel]
    decide
  · have hnamed : Lint.isNamed g.links n = true := by
      simp [Lint.isNamed, hloose, Node.label, hcontent, Content.label, hlabel]
    have hname := isName_of_lint h.lint_eq_nil hn hnamed
    rw [Node.label, hcontent] at hname
    rw [if_neg hlabel]
    exact hname

/-- Every block of a legible graph comes back. -/
lemma readable_block {b : Block} (hb : b ∈ g.declaringBlocks) : b.Readable := by
  rcases List.mem_append.1 hb with hb | hb
  · obtain ⟨s, hs, rfl⟩ := List.mem_map.1 hb
    have hsheet := h.readable_sheet hs
    refine ⟨isTextLine_lines hsheet, ⟨_, _, rfl, ?_⟩, Sheet.stanza_lines hsheet⟩
    have hfirst : (opening ("agent " ++ s.agent.label)).toList.head? = some 'a' := by
      simp [opening]
    rw [hfirst]
    decide
  · obtain ⟨s, hs, hblock⟩ := List.mem_filterMap.1 hb
    rw [Option.map_eq_some_iff] at hblock
    obtain ⟨block, hblock, rfl⟩ := hblock
    have hstate := h.readable_looseState hs
    refine ⟨isTextLine_typeBlock hstate hblock, ?_, StateContent.stanza_typeBlock hstate hblock⟩
    cases hfields : s.fields.getD [] with
    | nil =>
      rw [typeBlock?, hfields] at hblock
      cases hblock
    | cons f fields =>
      rw [typeBlock?, hfields, Option.some.injEq] at hblock
      subst hblock
      refine ⟨_, _, rfl, ?_⟩
      have hfirst : (opening ("type " ++ s.typeName)).toList.head? = some 't' := by
        simp [opening]
      intro hmark
      exact absurd (hfirst.symm.trans hmark) (by decide)

end Graph.Legible

/-! ## What the blocks declare, list by list -/

namespace Outline

lemma agents_join (os : List Outline) : (join os).agents = os.flatMap (·.agents) := by
  induction os with
  | nil => rfl
  | cons o os ih => rw [join_cons, append_eq, ih, List.flatMap_cons]

lemma tools_join (os : List Outline) : (join os).tools = os.flatMap (·.tools) := by
  induction os with
  | nil => rfl
  | cons o os ih => rw [join_cons, append_eq, ih, List.flatMap_cons]

lemma events_join (os : List Outline) : (join os).events = os.flatMap (·.events) := by
  induction os with
  | nil => rfl
  | cons o os ih => rw [join_cons, append_eq, ih, List.flatMap_cons]

lemma states_join (os : List Outline) : (join os).states = os.flatMap (·.states) := by
  induction os with
  | nil => rfl
  | cons o os ih => rw [join_cons, append_eq, ih, List.flatMap_cons]

lemma types_join (os : List Outline) : (join os).types = os.flatMap (·.types) := by
  induction os with
  | nil => rfl
  | cons o os ih => rw [join_cons, append_eq, ih, List.flatMap_cons]

end Outline

namespace Graph

lemma declared_eq (g : Graph) : (g.declaringBlocks.map Block.declared) =
    g.sheets.map Sheet.declared ++
      g.looseStates.filterMap fun s => (typeBlock? s).map fun _ => s.declared := by
  rw [declaringBlocks, List.map_append, List.map_map, List.map_filterMap]
  refine congrArg (g.sheets.map Sheet.declared ++ g.looseStates.filterMap ·) (funext fun s => ?_)
  rw [Option.map_map]
  rfl

/-- Types declare nothing but types. -/
lemma flatMap_types_eq_nil {α : Type} {f : Outline → List α}
    (hf : ∀ types, f { types } = []) (states : List StateContent) :
    (states.filterMap fun s => (typeBlock? s).map fun _ => s.declared).flatMap f = [] := by
  rw [List.flatMap_eq_nil_iff]
  intro o ho
  obtain ⟨s, -, hs⟩ := List.mem_filterMap.1 ho
  rw [Option.map_eq_some_iff] at hs
  obtain ⟨-, -, rfl⟩ := hs
  unfold StateContent.declared
  split
  · exact hf []
  · exact hf _

lemma declared_agents (g : Graph) : g.declared.agents = g.sheets.map Sheet.agentDecl := by
  rw [declared, Outline.agents_join, declared_eq, List.flatMap_append,
    flatMap_types_eq_nil fun _ => rfl, List.append_nil, List.flatMap_map]
  exact List.map_eq_flatMap.symm

lemma declared_tools (g : Graph) :
    g.declared.tools = g.sheets.flatMap fun s => s.tools.map (Sheet.toolDecl s.agent.label) := by
  rw [declared, Outline.tools_join, declared_eq, List.flatMap_append,
    flatMap_types_eq_nil fun _ => rfl, List.append_nil, List.flatMap_map]
  rfl

lemma declared_events (g : Graph) :
    g.declared.events = g.sheets.flatMap fun s => s.events.map (Sheet.eventDecl s.agent.label) := by
  rw [declared, Outline.events_join, declared_eq, List.flatMap_append,
    flatMap_types_eq_nil fun _ => rfl, List.append_nil, List.flatMap_map]
  rfl

lemma declared_states (g : Graph) : g.declared.states = g.sheets.flatMap Sheet.stateDecls := by
  rw [declared, Outline.states_join, declared_eq, List.flatMap_append,
    flatMap_types_eq_nil fun _ => rfl, List.append_nil, List.flatMap_map]
  rfl

lemma declared_types (g : Graph) :
    g.declared.types = g.looseStates.flatMap fun s => s.declared.types := by
  have hagents : (g.sheets.map Sheet.declared).flatMap (·.types) = [] := by
    rw [List.flatMap_map]
    exact List.flatMap_eq_nil_iff.2 fun _ _ => rfl
  rw [declared, Outline.types_join, declared_eq, List.flatMap_append, hagents, List.nil_append]
  induction g.looseStates with
  | nil => rfl
  | cons s states ih =>
    rw [List.filterMap_cons, List.flatMap_cons, ← ih]
    cases hfields : s.fields.getD [] with
    | nil =>
      have hblock : typeBlock? s = none := by
        rw [typeBlock?, hfields]
      have hdeclared : s.declared = {} := by
        rw [StateContent.declared, hfields]
      rw [hblock, hdeclared]
      rfl
    | cons f fields =>
      have hblock : ∃ block, typeBlock? s = some block := ⟨_, by rw [typeBlock?, hfields]⟩
      obtain ⟨block, hblock⟩ := hblock
      rw [hblock]
      rfl

/-! ## What is read back -/

/-- What an outline gives back of a graph whose script was read, field lines as they were read. -/
structure Restored (g : Graph) (o : Outline) : Prop where
  /-- The agents in the order of their nodes, with what is not empty of their values, and a provider
  exactly if they ask for a model; of a graph without agents, the one that holds its tools. -/
  agents : o.agents.map AgentDecl.unplaced = g.sheets.map Sheet.agentDecl
  /-- Under each agent its tools, in the order of their first links. -/
  tools : o.tools.map ToolDecl.unplaced =
    g.sheets.flatMap fun s => s.tools.map (Sheet.toolDecl s.agent.label)
  /-- Under each agent its event handlers, in the order of their first links. -/
  events : o.events.map EventDecl.unplaced =
    g.sheets.flatMap fun s => s.events.map (Sheet.eventDecl s.agent.label)
  /-- Of the state that counts for an agent, what each of its lines holds. -/
  states : o.states.map (fun d => (d.agent, d.fields)) =
    (g.sheets.filter fun s => s.fields.getD [] ≠ []).map
      fun s => (s.agent.label, (s.fields.getD []).flatMap stateFieldsIn)
  /-- Of the states that count for no agent, what each of their lines holds. -/
  types : o.types.map (fun d => (d.name, d.fields)) =
    (g.looseStates.filter fun s => s.fields.getD [] ≠ []).map
      fun s => (s.typeName, (s.fields.getD []).flatMap fun f => typeFieldsIn (required f))

/-- What each of some items says, if it says anything, is what those say that do. -/
lemma map_flatMap_eq_map_filter {α β γ : Type} {declare : α → List β} {tell : β → γ} {say : α → γ}
    {speaks : α → Prop} [DecidablePred speaks]
    (h : ∀ x, (declare x).map tell = if speaks x then [say x] else []) (xs : List α) :
    (xs.flatMap declare).map tell = (xs.filter speaks).map say := by
  induction xs with
  | nil => rfl
  | cons x xs ih =>
    rw [List.flatMap_cons, List.map_append, ih, h]
    by_cases hx : speaks x
    · rw [if_pos hx, List.filter_cons, if_pos (decide_eq_true hx), List.map_cons,
        List.singleton_append]
    · have hfalse : ¬ decide (speaks x) = true := fun htrue => hx (of_decide_eq_true htrue)
      rw [if_neg hx, List.filter_cons, if_neg hfalse, List.nil_append]

lemma map_stateDecls (sheets : List Sheet) :
    (sheets.flatMap Sheet.stateDecls).map (fun d => (d.agent, d.fields)) =
      (sheets.filter fun s => s.fields.getD [] ≠ []).map
        fun s => (s.agent.label, (s.fields.getD []).flatMap stateFieldsIn) := by
  refine map_flatMap_eq_map_filter (fun s => ?_) sheets
  rw [Sheet.stateDecls]
  cases s.fields.getD [] with
  | nil => rfl
  | cons f fields => rw [if_pos (List.cons_ne_nil f fields), List.map_singleton]

lemma map_declared_types (states : List StateContent) :
    (states.flatMap fun s => s.declared.types).map (fun d => (d.name, d.fields)) =
      (states.filter fun s => s.fields.getD [] ≠ []).map
        fun s => (s.typeName, (s.fields.getD []).flatMap fun f => typeFieldsIn (required f)) := by
  refine map_flatMap_eq_map_filter (fun s => ?_) states
  rw [StateContent.declared]
  cases s.fields.getD [] with
  | nil => rfl
  | cons f fields => rw [if_pos (List.cons_ne_nil f fields), List.map_singleton]

/-- An outline that declares what a graph says gives the graph back. -/
lemma restored_of_unplaced {o : Outline} (h : o.unplaced = g.declared) : g.Restored o := by
  refine ⟨?_, ?_, ?_, ?_, ?_⟩
  · rw [← declared_agents, ← h]
    rfl
  · rw [← declared_tools, ← h]
    rfl
  · rw [← declared_events, ← h]
    rfl
  · rw [← map_stateDecls, ← declared_states, ← h, Outline.unplaced, List.map_map]
    rfl
  · rw [← map_declared_types, ← declared_types, ← h, Outline.unplaced, List.map_map]
    rfl

/-- Reading the script of a legible graph finds no error and gives the graph back. -/
lemma Legible.restored_outline (h : g.Legible) :
    (outline g.script).isFaulty = false ∧ g.Restored (outline g.script) := by
  obtain ⟨hunplaced, hfaulty, -⟩ := unplaced_outline_script fun b hb => h.readable_block hb
  exact ⟨hfaulty, restored_of_unplaced hunplaced⟩

/-- **What comes back of a legible graph.**  Reading its script finds no error and gives back its
agents, tools and event handlers, and of its states what their lines hold; and a line comes back as
it was spelled exactly if it is a field. -/
theorem Legible.restored (h : g.Legible) :
    (outline g.script).isFaulty = false ∧ g.Restored (outline g.script) ∧
      (∀ line, (stateFieldsIn line).map StateField.render = [line] ↔ IsField line) ∧
      ∀ line, (typeFieldsIn line).map TypeField.render = [line] ↔ IsTypeField line := by
  obtain ⟨hfaulty, hrestored⟩ := h.restored_outline
  exact ⟨hfaulty, hrestored, fun _ => render_stateFieldsIn_iff, fun _ => render_typeFieldsIn_iff⟩

/-- A workflow with quotes and braces in parameters, agents of one name, and a line that is no field
between two that are. -/
def crookedWorkflow : Graph where
  nodes := [
    ⟨"a", ⟨0, 0⟩, .agent ⟨"Main", some "of the agent", none, some "opus", none⟩⟩,
    ⟨"b", ⟨0, 0⟩, .agent ⟨"Main", none, some "2", none, some "local"⟩⟩,
    ⟨"t", ⟨0, 0⟩, .tool ⟨"pick", some "mode: 'a' | '\x7b', at: \x7bx: number\x7d", none,
      some "of the tool"⟩⟩,
    ⟨"u", ⟨0, 0⟩, .tool ⟨"shout", some "word: '", some "Map<string, number>", none⟩⟩,
    ⟨"e", ⟨0, 0⟩, .event ⟨"message", none⟩⟩,
    ⟨"s", ⟨0, 0⟩, .state ⟨"", some ["seen?: string", "name: string | null", "id: number"]⟩⟩,
    ⟨"o", ⟨0, 0⟩, .state ⟨"Settings", some ["?theme: string"]⟩⟩]
  edges := [.joining "a" "u", .joining "t" "a", .joining "a" "s", .joining "b" "e"]

lemma legible_crookedWorkflow : crookedWorkflow.Legible where
  lint_eq_nil := by decide +kernel
  params := by
    intro n hn t ht params hparams
    simp only [crookedWorkflow, List.mem_cons, List.not_mem_nil, or_false] at hn
    rcases hn with rfl | rfl | rfl | rfl | rfl | rfl | rfl <;> cases ht <;>
      (obtain rfl := Option.some.inj hparams; decide)
  returns := by
    intro n hn t ht type htype
    simp only [crookedWorkflow, List.mem_cons, List.not_mem_nil, or_false] at hn
    rcases hn with rfl | rfl | rfl | rfl | rfl | rfl | rfl <;> cases ht
    · cases htype
    · obtain rfl := Option.some.inj htype
      decide
  opens := by
    intro n hn t ht hdescription
    simp only [crookedWorkflow, List.mem_cons, List.not_mem_nil, or_false] at hn
    rcases hn with rfl | rfl | rfl | rfl | rfl | rfl | rfl <;> cases ht
    · decide +kernel
    · exact absurd rfl hdescription
  stateFields := by
    intro n hn s hs hcounts f hf
    simp only [crookedWorkflow, List.mem_cons, List.not_mem_nil, or_false] at hn
    rcases hn with rfl | rfl | rfl | rfl | rfl | rfl | rfl <;> cases hs
    · revert f
      decide +kernel
    · exact absurd hcounts (by decide +kernel)
  typeFields := by
    intro n hn s hs hcounts f hf
    simp only [crookedWorkflow, List.mem_cons, List.not_mem_nil, or_false] at hn
    rcases hn with rfl | rfl | rfl | rfl | rfl | rfl | rfl <;> cases hs
    · exact absurd hcounts (by decide +kernel)
    · revert f
      decide +kernel

/-- The crooked workflow comes back. -/
theorem restored_crookedWorkflow :
    crookedWorkflow.Legible ∧ (outline crookedWorkflow.script).isFaulty = false ∧
      crookedWorkflow.Restored (outline crookedWorkflow.script) := by
  obtain ⟨hfaulty, hrestored, -⟩ := Legible.restored legible_crookedWorkflow
  exact ⟨legible_crookedWorkflow, hfaulty, hrestored⟩

/-- A workflow without findings of which much does not come back. -/
def evasiveWorkflow : Graph where
  nodes := [
    ⟨"a", ⟨0, 0⟩, .agent ⟨"Main", some "of the agent", none, none, some "local"⟩⟩,
    ⟨"t", ⟨0, 0⟩, .tool ⟨"pick", some "mode: '", none, some "of the tool"⟩⟩,
    ⟨"u", ⟨0, 0⟩, .tool ⟨"copy", some "from: string,\nto: string", none, none⟩⟩,
    ⟨"v", ⟨0, 0⟩, .tool ⟨"count", none, some "Map<string,\nnumber>", none⟩⟩,
    ⟨"s", ⟨0, 0⟩, .state ⟨"", some ["name: string | null", "x: number\ny: number"]⟩⟩,
    ⟨"o", ⟨0, 0⟩, .state ⟨"Options", some ["at: \x7b"]⟩⟩]
  edges := [.joining "a" "t", .joining "a" "u", .joining "a" "v", .joining "a" "s"]

/-- Without findings a graph need not come back.  The agent is given the description of a tool whose
brace does not count, and no provider, since it asks for no model; two tools whose signatures hold
line breaks are lost; neither line of the state comes back as it was spelled; and a brace in a field
is an error. -/
theorem lint_is_incomplete :
    evasiveWorkflow.lint = [] ∧
      (outline evasiveWorkflow.script).agents.map AgentDecl.unplaced =
        [⟨"Main", some "of the tool", none, none, default⟩] ∧
      (outline evasiveWorkflow.script).tools.map (·.name) = ["pick"] ∧
      (outline evasiveWorkflow.script).states.map (fun d => d.fields.map StateField.render) =
        [["name: string", "x: number", "y: number"]] ∧
      (outline evasiveWorkflow.script).isFaulty = true := by
  -- The lines are taken from the graph, since the kernel is slow to take a long string apart.
  rw [Script.outline, reading, Script.scriptLines, toList_script]
  decide +kernel

end Graph

end AgentScript
