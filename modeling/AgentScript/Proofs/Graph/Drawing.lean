import AgentScript.Graph.Layout
import AgentScript.Proofs.Graph.Ids
import AgentScript.Proofs.Graph.Stars

/-!
# A layout is a drawing of sheets

The layout of an outline depends on the outline only through what it says under each agent that gets
a node and through its types.  Both are drawn as they stand: one star for every sheet, and one state
beside the stars for every type (`layoutOn_eq_draw`).

Where the names are names, no two nodes of a drawing have the same id, and the drawing is a graph of
stars whose sheets are the sheets that were drawn (`exists_stars_draw`).  Going from sheets to a
graph and back loses nothing (`sheets_draw`, `looseStates_draw`).
-/

namespace AgentScript

/-- All that an outline says under an agent. -/
def Outline.sheetUnder (o : Outline) (a : AgentDecl) : Sheet where
  agent :=
    ⟨a.name, a.description, a.version, a.model.bind (·.name), a.model.bind (·.provider)⟩
  fields := (o.stateUnder? a.name).map fun s => s.fields.map StateField.render
  tools := (o.toolsUnder a.name).map fun t => ⟨t.name, some t.params, t.returns, t.description⟩
  events := (o.eventsUnder a.name).map fun e => ⟨e.name, some e.eventClass⟩

/-- The sheets of the agents that get a node. -/
def Outline.sheets (o : Outline) : List Sheet :=
  (Layout.placedAgents o.agents).map o.sheetUnder

/-- The types of an outline, as states. -/
def Outline.typeStates (o : Outline) : List StateContent :=
  o.types.map fun t => ⟨t.name, some (t.fields.map TypeField.render)⟩

namespace Layout

/-! ## Drawing -/

/-- A member that is to be placed. -/
structure Request where
  /-- The id that is asked for. -/
  id : String
  position : Position
  content : Content
  /-- The edge to the member, by the id it comes to have. -/
  edge : String → Edge

def Draft.addRequest (d : Draft) (r : Request) : Draft :=
  (d.addNode r.id r.position r.content).addEdge (r.edge (idFor d.asked r.id))

def toolRequest (c : Geometry) (agent agentId : String) (y : Float) (t : ToolContent) (i : Nat) :
    Request where
  id := "tool-" ++ agent ++ "-" ++ t.label
  position := ⟨c.agentX + c.toolXOffset, heightOf (y + c.toolYOffset) c.toolYSpacing i⟩
  content := .tool t
  edge id := .joining id agentId

def eventRequest (c : Geometry) (agent agentId : String) (y : Float) (e : EventContent) (i : Nat) :
    Request where
  id := "event-" ++ agent ++ "-" ++ e.label
  position := ⟨c.agentX + c.eventXOffset, heightOf (y + c.eventYOffset) c.eventYSpacing i⟩
  content := .event e
  edge id := .joining agentId id

def stateRequest (c : Geometry) (agent agentId : String) (y : Float) (fields : List String) :
    Request where
  id := "state-" ++ agent
  position := ⟨c.agentX + c.stateXOffset, y + c.stateYOffset⟩
  content := .state ⟨stateLabel, some fields⟩
  edge id := (Edge.joining agentId id).leavingAt stateHandle

/-- The members of a sheet, around an agent of the given id and height. -/
def requests (c : Geometry) (agentId : String) (y : Float) (s : Sheet) : List Request :=
  (s.tools.zipIdx.map fun t => toolRequest c s.agent.label agentId y t.1 t.2) ++
    (s.events.zipIdx.map fun e => eventRequest c s.agent.label agentId y e.1 e.2) ++
    (s.fields.map (stateRequest c s.agent.label agentId y)).toList

/-- Draws a sheet in the given row. -/
def addSheet (c : Geometry) (d : Draft) (s : Sheet) (row : Nat) : Draft :=
  let y := heightOf c.agentYStart c.agentYSpacing row
  let id := "agent-" ++ s.agent.label
  (requests c (idFor d.asked id) y s).foldl Draft.addRequest
    (d.addNode id ⟨c.agentX, y⟩ (.agent s.agent))

/-- Draws a state beside the stars, the `i`-th of all. -/
def addLoose (c : Geometry) (d : Draft) (s : StateContent) (i : Nat) : Draft :=
  d.addNode ("type-" ++ s.label) ⟨c.agentX + c.typeXOffset, heightOf c.agentYStart c.typeYSpacing i⟩
    (.state s)

/-- The draft of some sheets and of some states beside them. -/
def drawing (c : Geometry) (sheets : List Sheet) (states : List StateContent) : Draft :=
  states.zipIdx.foldl (fun d s => addLoose c d s.1 s.2)
    (sheets.zipIdx.foldl (fun d s => addSheet c d s.1 s.2) {})

/-- The graph of some sheets and of some states beside them. -/
def draw (c : Geometry) (sheets : List Sheet) (states : List StateContent) : Graph :=
  ⟨(drawing c sheets states).nodes, (drawing c sheets states).edges⟩

lemma addAgent_eq_addSheet (c : Geometry) (o : Outline) (d : Draft) (a : AgentDecl) (row : Nat) :
    addAgent c o d a row = addSheet c d (o.sheetUnder a) row := by
  have hstate : ∀ (agentId : String) (y : Float) (d : Draft),
      addState c a.name agentId y d (o.stateUnder? a.name) =
        ((o.sheetUnder a).fields.map (stateRequest c a.name agentId y)).toList.foldl
          Draft.addRequest d := by
    intro agentId y d
    rw [Outline.sheetUnder]
    cases o.stateUnder? a.name <;> rfl
  rw [addAgent, addSheet, requests, List.foldl_append, List.foldl_append, List.foldl_map,
    List.foldl_map, hstate]
  simp only [Outline.sheetUnder, List.zipIdx_map, List.foldl_map]
  rfl

/-- A layout draws the sheets and the types of the outline. -/
theorem layoutOn_eq_draw (c : Geometry) (o : Outline) :
    layoutOn c o = draw c o.sheets o.typeStates := by
  rw [layoutOn, draw, drawing, Outline.sheets, Outline.typeStates, List.zipIdx_map, List.zipIdx_map,
    List.foldl_map, List.foldl_map]
  simp only [addAgent_eq_addSheet]
  rfl

/-! ## The members of a star -/

/-- The members that come of some requests. -/
def membersOf (asked : List String) : List Request → List (Node × Edge)
  | [] => []
  | r :: rs =>
    (⟨idFor asked r.id, r.position, r.content⟩, r.edge (idFor asked r.id)) ::
      membersOf (asked ++ [r.id]) rs

lemma foldl_addRequest (rs : List Request) (d : Draft) :
    rs.foldl Draft.addRequest d =
      ⟨d.nodes ++ (membersOf d.asked rs).map (·.1), d.edges ++ (membersOf d.asked rs).map (·.2),
        d.asked ++ rs.map (·.id)⟩ := by
  induction rs generalizing d with
  | nil => simp [membersOf]
  | cons r rs ih =>
    rw [List.foldl_cons, ih]
    simp [membersOf, Draft.addRequest, Draft.addNode, Draft.addEdge]

lemma map_content_membersOf (asked : List String) (rs : List Request) :
    (membersOf asked rs).map (·.1.content) = rs.map (·.content) := by
  induction rs generalizing asked with
  | nil => rfl
  | cons r rs ih =>
    rw [membersOf, List.map_cons, List.map_cons, ih]

lemma exists_request {asked : List String} {rs : List Request} {m : Node × Edge}
    (h : m ∈ membersOf asked rs) : ∃ r ∈ rs, m.1.content = r.content ∧ m.2 = r.edge m.1.id := by
  induction rs generalizing asked with
  | nil => cases h
  | cons r rs ih =>
    rcases List.mem_cons.1 h with rfl | h
    · exact ⟨r, List.mem_cons_self, rfl, rfl⟩
    · obtain ⟨r', hr', hmember⟩ := ih h
      exact ⟨r', List.mem_cons_of_mem r hr', hmember⟩

/-- The contents of the members of a sheet. -/
def contentsOf (s : Sheet) : List Content :=
  s.tools.map .tool ++ s.events.map .event ++
    (s.fields.map fun fields => .state ⟨stateLabel, some fields⟩).toList

lemma mem_contentsOf {s : Sheet} {content : Content} :
    content ∈ contentsOf s ↔ (∃ t ∈ s.tools, content = .tool t) ∨
      (∃ e ∈ s.events, content = .event e) ∨
        ∃ fields, s.fields = some fields ∧ content = .state ⟨stateLabel, some fields⟩ := by
  rw [contentsOf, List.mem_append, List.mem_append, List.mem_map, List.mem_map, Option.mem_toList,
    Option.map_eq_some_iff, or_assoc]
  simp only [eq_comm]

lemma filter_state_contentsOf (s : Sheet) :
    (contentsOf s).filter (·.kind == .state) =
      (s.fields.map fun fields => (.state ⟨stateLabel, some fields⟩ : Content)).toList := by
  have htools : (s.tools.map Content.tool).filter (·.kind == .state) = [] := by
    rw [List.filter_eq_nil_iff]
    intro c hc
    obtain ⟨t, -, rfl⟩ := List.mem_map.1 hc
    exact Bool.false_ne_true
  have hevents : (s.events.map Content.event).filter (·.kind == .state) = [] := by
    rw [List.filter_eq_nil_iff]
    intro c hc
    obtain ⟨e, -, rfl⟩ := List.mem_map.1 hc
    exact Bool.false_ne_true
  rw [contentsOf, List.filter_append, List.filter_append, htools, hevents, List.nil_append,
    List.nil_append]
  cases s.fields <;> rfl

lemma filterMap_tool?_contentsOf (s : Sheet) : (contentsOf s).filterMap (·.tool?) = s.tools := by
  have hevents : (s.events.map Content.event).filterMap (·.tool?) = [] := by
    rw [List.filterMap_eq_nil_iff]
    intro c hc
    obtain ⟨e, -, rfl⟩ := List.mem_map.1 hc
    rfl
  have hstate : ((s.fields.map fun fields =>
      (.state ⟨stateLabel, some fields⟩ : Content)).toList).filterMap (·.tool?) = [] := by
    cases s.fields <;> rfl
  rw [contentsOf, List.filterMap_append, List.filterMap_append, hevents, hstate, List.append_nil,
    List.append_nil, List.filterMap_map]
  exact List.filterMap_some

lemma filterMap_event?_contentsOf (s : Sheet) : (contentsOf s).filterMap (·.event?) = s.events := by
  have htools : (s.tools.map Content.tool).filterMap (·.event?) = [] := by
    rw [List.filterMap_eq_nil_iff]
    intro c hc
    obtain ⟨t, -, rfl⟩ := List.mem_map.1 hc
    rfl
  have hstate : ((s.fields.map fun fields =>
      (.state ⟨stateLabel, some fields⟩ : Content)).toList).filterMap (·.event?) = [] := by
    cases s.fields <;> rfl
  rw [contentsOf, List.filterMap_append, List.filterMap_append, htools, hstate, List.append_nil,
    List.nil_append, List.filterMap_map]
  exact List.filterMap_some

lemma map_zipIdx {α β : Type} (xs : List α) (f : α → β) :
    xs.zipIdx.map (fun x => f x.1) = xs.map f := by
  have hmap := congrArg (List.map f) (List.zipIdx_map_fst 0 xs)
  rw [List.map_map] at hmap
  exact hmap

lemma map_content_requests (c : Geometry) (agentId : String) (y : Float) (s : Sheet) :
    (requests c agentId y s).map (·.content) = contentsOf s := by
  rw [requests, contentsOf, List.map_append, List.map_append, List.map_map, List.map_map]
  refine congrArg₂ (· ++ ·) (congrArg₂ (· ++ ·) ?_ ?_) ?_
  · exact map_zipIdx s.tools Content.tool
  · exact map_zipIdx s.events Content.event
  · cases s.fields <;> rfl

/-- The edge of a member leads between the agent and the member. -/
lemma joins_of_mem_requests {c : Geometry} {agentId : String} {y : Float} {s : Sheet} {r : Request}
    (h : r ∈ requests c agentId y s) (id : String) : Star.Joins (r.edge id) agentId id := by
  rw [requests, List.mem_append, List.mem_append] at h
  rcases h with (h | h) | h
  · obtain ⟨t, -, rfl⟩ := List.mem_map.1 h
    exact .inr ⟨rfl, rfl⟩
  · obtain ⟨e, -, rfl⟩ := List.mem_map.1 h
    exact .inl ⟨rfl, rfl⟩
  · rw [Option.mem_toList, Option.map_eq_some_iff] at h
    obtain ⟨fields, -, rfl⟩ := h
    exact .inl ⟨rfl, rfl⟩

/-- The star that comes of a sheet. -/
def starOf (c : Geometry) (asked : List String) (s : Sheet) (row : Nat) : Star :=
  let y := heightOf c.agentYStart c.agentYSpacing row
  let id := "agent-" ++ s.agent.label
  ⟨⟨idFor asked id, ⟨c.agentX, y⟩, .agent s.agent⟩, s.agent,
    membersOf (asked ++ [id]) (requests c (idFor asked id) y s)⟩

lemma addSheet_eq (c : Geometry) (d : Draft) (s : Sheet) (row : Nat) :
    (addSheet c d s row).nodes = d.nodes ++ (starOf c d.asked s row).nodes ∧
      (addSheet c d s row).edges = d.edges ++ (starOf c d.asked s row).edges := by
  rw [addSheet, foldl_addRequest]
  refine ⟨?_, rfl⟩
  rw [Draft.addNode, List.append_assoc]
  rfl

lemma contents_starOf (c : Geometry) (asked : List String) (s : Sheet) (row : Nat) :
    (starOf c asked s row).contents = contentsOf s := by
  rw [Star.contents, starOf, map_content_membersOf, map_content_requests]

lemma wellFormed_starOf (c : Geometry) (asked : List String) (s : Sheet) (row : Nat) :
    (starOf c asked s row).WellFormed where
  hub := rfl
  members := by
    intro m hm
    obtain ⟨r, hr, hcontent, hedge⟩ := exists_request hm
    refine ⟨fun hkind => ?_, ?_⟩
    · have hmem : r.content ∈ contentsOf s := by
        rw [← map_content_requests]
        exact List.mem_map_of_mem hr
      rw [Node.kind, hcontent] at hkind
      rcases mem_contentsOf.1 hmem with ⟨t, -, ht⟩ | ⟨e, -, he⟩ | ⟨fields, -, hstate⟩
      · rw [ht] at hkind
        cases hkind
      · rw [he] at hkind
        cases hkind
      · rw [hstate] at hkind
        cases hkind
    · rw [hedge]
      exact joins_of_mem_requests hr m.1.id
  state := by
    rw [contents_starOf, filter_state_contentsOf]
    cases s.fields <;> simp

/-- A star has the sheet that was drawn. -/
lemma sheet_starOf (c : Geometry) (asked : List String) (s : Sheet) (row : Nat) :
    (starOf c asked s row).sheet = s := by
  have hfields : (((contentsOf s).filter (·.kind == .state)).getLast?.bind (·.state?)).bind
      (·.fields) = s.fields := by
    rw [filter_state_contentsOf]
    cases s.fields <;> rfl
  rw [Star.sheet, contents_starOf, Star.sheetOf, filterMap_tool?_contentsOf,
    filterMap_event?_contentsOf, hfields]
  rfl

/-! ## What the nodes say -/

/-- What the nodes of a star say that comes of a sheet. -/
lemma map_content_starOf (c : Geometry) (asked : List String) (s : Sheet) (row : Nat) :
    (starOf c asked s row).nodes.map (·.content) = .agent s.agent :: contentsOf s := by
  rw [← contents_starOf c asked s row, Star.nodes, Star.contents, List.map_cons, List.map_map]
  rfl

/-- What the nodes of a drawing say, whatever the names. -/
theorem map_content_draw (c : Geometry) (sheets : List Sheet) (states : List StateContent) :
    (draw c sheets states).nodes.map (·.content) =
      (sheets.flatMap fun s => .agent s.agent :: contentsOf s) ++ states.map .state := by
  have hsheets : ∀ (ss : List (Sheet × Nat)) (d : Draft),
      (ss.foldl (fun d s => addSheet c d s.1 s.2) d).nodes.map (·.content) =
        d.nodes.map (·.content) ++ (ss.map (·.1)).flatMap fun s => .agent s.agent :: contentsOf s := by
    intro ss
    induction ss with
    | nil => intro d; simp
    | cons s ss ih =>
      intro d
      rw [List.foldl_cons, ih, (addSheet_eq c d s.1 s.2).1, List.map_append, map_content_starOf,
        List.append_assoc, List.map_cons, List.flatMap_cons]
  have hstates : ∀ (ss : List (StateContent × Nat)) (d : Draft),
      (ss.foldl (fun d s => addLoose c d s.1 s.2) d).nodes.map (·.content) =
        d.nodes.map (·.content) ++ ss.map (.state ·.1) := by
    intro ss
    induction ss with
    | nil => intro d; simp
    | cons s ss ih =>
      intro d
      rw [List.foldl_cons, ih, addLoose, Draft.addNode, List.map_append, List.append_assoc]
      rfl
  rw [draw, drawing, hstates, hsheets, List.zipIdx_map_fst, map_zipIdx states Content.state]
  rfl

/-! ## Ids of their own -/

/-- No two nodes have the same id, and the ids that are taken are known from what was asked for. -/
structure Draft.Distinct (d : Draft) : Prop where
  nodup : (d.nodes.map (·.id)).Nodup
  taken : ∀ n ∈ d.nodes, ∃ id i, IsAsked id ∧ i < d.asked.count id ∧ n.id = numbered id i

lemma Draft.Distinct.addNode {d : Draft} (h : d.Distinct) {id : String} (hid : IsAsked id)
    (position : Position) (content : Content) : (d.addNode id position content).Distinct where
  nodup := by
    rw [Draft.addNode, List.map_append, List.nodup_append]
    refine ⟨h.nodup, List.nodup_singleton _, fun taken htaken new hnew => ?_⟩
    obtain ⟨n, hn, rfl⟩ := List.mem_map.1 htaken
    rw [List.map_singleton, List.mem_singleton] at hnew
    subst hnew
    obtain ⟨id', i, hid', hlt, hnode⟩ := h.taken n hn
    rw [hnode, idFor_eq_numbered]
    intro hsame
    obtain ⟨rfl, rfl⟩ := numbered_injective hid' hid hsame
    exact Nat.lt_irrefl _ hlt
  taken := by
    intro n hn
    rcases List.mem_append.1 hn with hn | hn
    · obtain ⟨id', i, hid', hlt, hnode⟩ := h.taken n hn
      refine ⟨id', i, hid', ?_, hnode⟩
      rw [Draft.addNode, List.count_append]
      omega
    · rw [List.mem_singleton] at hn
      refine ⟨id, d.asked.count id, hid, ?_, ?_⟩
      · rw [Draft.addNode, List.count_append, List.count_singleton_self]
        omega
      · rw [hn, idFor_eq_numbered]

lemma Draft.Distinct.foldl_addRequest {rs : List Request} {d : Draft} (h : d.Distinct)
    (hrs : ∀ r ∈ rs, IsAsked r.id) : (rs.foldl Draft.addRequest d).Distinct := by
  induction rs generalizing d with
  | nil => exact h
  | cons r rs ih =>
    have hnode := h.addNode (hrs r List.mem_cons_self) r.position r.content
    exact ih ⟨hnode.nodup, hnode.taken⟩ fun r' hr' => hrs r' (List.mem_cons_of_mem r hr')

end Layout

open Text in
/-- A sheet whose names are names. -/
structure Sheet.IsNamed (s : Sheet) : Prop where
  agent : isName s.agent.label.toList = true
  tools : ∀ t ∈ s.tools, isName t.label.toList = true
  events : ∀ e ∈ s.events, isName e.label.toList = true

namespace Layout

open Text

lemma isAsked_of_mem_requests {c : Geometry} {agentId : String} {y : Float} {s : Sheet}
    (h : s.IsNamed) : ∀ r ∈ requests c agentId y s, IsAsked r.id := by
  intro r hr
  rw [requests, List.mem_append, List.mem_append] at hr
  rcases hr with (hr | hr) | hr
  · obtain ⟨t, ht, rfl⟩ := List.mem_map.1 hr
    exact isAsked_of_names "tool".toList (by decide) (by decide) h.agent
      (h.tools t.1 (List.fst_mem_of_mem_zipIdx ht))
  · obtain ⟨e, he, rfl⟩ := List.mem_map.1 hr
    exact isAsked_of_names "event".toList (by decide) (by decide) h.agent
      (h.events e.1 (List.fst_mem_of_mem_zipIdx he))
  · rw [Option.mem_toList, Option.map_eq_some_iff] at hr
    obtain ⟨fields, -, rfl⟩ := hr
    exact isAsked_of_name "state".toList (by decide) (by decide) h.agent

lemma Draft.Distinct.addSheet {d : Draft} (h : d.Distinct) (c : Geometry) {s : Sheet}
    (hs : s.IsNamed) (row : Nat) : (addSheet c d s row).Distinct :=
  (h.addNode (isAsked_of_name "agent".toList (by decide) (by decide) hs.agent) _ _).foldl_addRequest
    (isAsked_of_mem_requests hs)

/-! ## The stars of a drawing -/

/-- The sheets are drawn as stars, in their order. -/
lemma exists_stars_foldl (c : Geometry) {sheets : List (Sheet × Nat)}
    (hsheets : ∀ s ∈ sheets, s.1.IsNamed) {d : Draft} (h : d.Distinct) :
    ∃ stars : List Star,
      (sheets.foldl (fun d s => addSheet c d s.1 s.2) d).Distinct ∧
      (sheets.foldl (fun d s => addSheet c d s.1 s.2) d).nodes =
        d.nodes ++ stars.flatMap Star.nodes ∧
      (sheets.foldl (fun d s => addSheet c d s.1 s.2) d).edges =
        d.edges ++ stars.flatMap Star.edges ∧
      (∀ s ∈ stars, s.WellFormed) ∧ stars.map Star.sheet = sheets.map (·.1) := by
  induction sheets generalizing d with
  | nil => exact ⟨[], h, by simp, by simp, by simp, rfl⟩
  | cons s sheets ih =>
    have hs := hsheets s List.mem_cons_self
    obtain ⟨stars, hdistinct, hnodes, hedges, hwell, hsame⟩ :=
      ih (fun s' hs' => hsheets s' (List.mem_cons_of_mem s hs')) (h.addSheet c hs s.2)
    obtain ⟨hnodes', hedges'⟩ := addSheet_eq c d s.1 s.2
    refine ⟨starOf c d.asked s.1 s.2 :: stars, hdistinct, ?_, ?_, ?_, ?_⟩
    · rw [List.foldl_cons, hnodes, hnodes', List.flatMap_cons, List.append_assoc]
    · rw [List.foldl_cons, hedges, hedges', List.flatMap_cons, List.append_assoc]
    · intro star hstar
      rcases List.mem_cons.1 hstar with rfl | hstar
      · exact wellFormed_starOf c d.asked s.1 s.2
      · exact hwell star hstar
    · rw [List.map_cons, List.map_cons, sheet_starOf, hsame]

lemma exists_loose_foldl (c : Geometry) {states : List (StateContent × Nat)}
    (hstates : ∀ s ∈ states, isName s.1.label.toList = true) {d : Draft} (h : d.Distinct) :
    ∃ loose : List Node,
      (states.foldl (fun d s => addLoose c d s.1 s.2) d).Distinct ∧
      (states.foldl (fun d s => addLoose c d s.1 s.2) d).nodes = d.nodes ++ loose ∧
      (states.foldl (fun d s => addLoose c d s.1 s.2) d).edges = d.edges ∧
      loose.map (·.content) = states.map (.state ·.1) := by
  induction states generalizing d with
  | nil => exact ⟨[], h, by simp, rfl, rfl⟩
  | cons s states ih =>
    have hdraft : (addLoose c d s.1 s.2).Distinct :=
      h.addNode (isAsked_of_name "type".toList (by decide) (by decide)
        (hstates s List.mem_cons_self)) _ _
    obtain ⟨loose, hdistinct, hnodes, hedges, hsame⟩ :=
      ih (fun s' hs' => hstates s' (List.mem_cons_of_mem s hs')) hdraft
    obtain ⟨n, hn, hcontent⟩ : ∃ n : Node, (addLoose c d s.1 s.2).nodes = d.nodes ++ [n] ∧
        n.content = .state s.1 := ⟨_, rfl, rfl⟩
    refine ⟨n :: loose, hdistinct, ?_, hedges, ?_⟩
    · rw [List.foldl_cons, hnodes, hn, List.append_assoc, List.singleton_append]
    · rw [List.map_cons, List.map_cons, hsame, hcontent]

variable (c : Geometry) {sheets : List Sheet} {states : List StateContent}

/-- **A drawing is made of stars.**  Where the names are names, the drawing has one star for every
sheet, and beside the stars one state for every state that was drawn there. -/
theorem exists_stars_draw (hsheets : ∀ s ∈ sheets, s.IsNamed)
    (hstates : ∀ s ∈ states, isName s.label.toList = true) :
    ∃ stars loose, Stars (draw c sheets states) stars loose ∧ stars.map Star.sheet = sheets ∧
      loose.map (·.content) = states.map .state := by
  have hempty : ({} : Draft).Distinct := ⟨List.nodup_nil, fun n hn => by cases hn⟩
  have hsheets' : ∀ s ∈ sheets.zipIdx, s.1.IsNamed :=
    fun s hs => hsheets s.1 (List.fst_mem_of_mem_zipIdx hs)
  have hstates' : ∀ s ∈ states.zipIdx, isName s.1.label.toList = true :=
    fun s hs => hstates s.1 (List.fst_mem_of_mem_zipIdx hs)
  obtain ⟨stars, hdistinct, hnodes, hedges, hwell, hsame⟩ := exists_stars_foldl c hsheets' hempty
  obtain ⟨loose, hdistinct', hnodes', hedges', hsame'⟩ := exists_loose_foldl c hstates' hdistinct
  rw [List.zipIdx_map_fst] at hsame
  rw [map_zipIdx states Content.state] at hsame'
  refine ⟨stars, loose, ⟨?_, ?_, hwell, ?_, hdistinct'.nodup⟩, hsame, hsame'⟩
  · exact hnodes'.trans (congrArg (· ++ loose) hnodes)
  · exact hedges'.trans hedges
  · intro n hn
    have hcontent : n.content ∈ states.map Content.state := hsame' ▸ List.mem_map_of_mem hn
    obtain ⟨s, -, hs⟩ := List.mem_map.1 hcontent
    exact ⟨s, hs.symm⟩

variable (hsheets : ∀ s ∈ sheets, s.IsNamed) (hstates : ∀ s ∈ states, isName s.label.toList = true)
include hsheets hstates

/-- The sheets that were drawn are the sheets of the graph. -/
theorem sheets_draw : (draw c sheets states).sheets = sheets := by
  obtain ⟨stars, loose, hstars, hsame, -⟩ := exists_stars_draw c hsheets hstates
  rw [hstars.sheets_eq, hsame]

/-- The states that were drawn beside the stars are those that count for no agent. -/
theorem looseStates_draw : (draw c sheets states).looseStates = states := by
  obtain ⟨stars, loose, hstars, -, hsame⟩ := exists_stars_draw c hsheets hstates
  have hcontents : loose.filterMap (·.content.state?) =
      (loose.map (·.content)).filterMap (·.state?) := by
    rw [List.filterMap_map]
    rfl
  rw [hstars.looseStates_eq, hcontents, hsame, List.filterMap_map]
  exact List.filterMap_some

end Layout

end AgentScript
