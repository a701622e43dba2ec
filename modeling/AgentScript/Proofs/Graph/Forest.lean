import AgentScript.Graph.Lint
import AgentScript.Proofs.Graph.Placement

/-!
# A layout is a forest of stars

Whatever a text says, the graph of its outline is a forest: every edge leads between an agent and a
tool, an event handler or a state, and each of these has one edge, that to its agent.  Types have no
edges.  Nodes are told apart by their ids, and so are edges, whose ids are put together from those of
their ends (`Spot.id_eq_of_edge_id_eq`).

Of all that can be wrong with a graph, a layout leaves only values that do not fit between quotes:
ids are told apart, edges lead from node to node, members have one agent each, and names and
signatures were read from a script (`Outline.Sound.isBadValue_of_mem_causes`).
-/

namespace AgentScript

open Script Text

/-! ## Spots by their ids -/

/-- The agent that a member is linked to; agents and types are no members. -/
def Title.holder? : Title → Option String
  | .agent _ => none
  | .tool owner _ => some owner
  | .event owner _ => some owner
  | .state owner => some owner
  | .type _ => none

lemma Title.owner?_of_holder? {t : Title} {owner : String} (h : t.holder? = some owner) :
    t.owner? = some owner := by
  cases t <;> first | exact h | cases h

lemma Title.word_ne_agent {t : Title} {owner : String} (h : t.holder? = some owner) :
    t.word ≠ "agent" := by
  cases t with
  | agent _ => cases h
  | _ => simp [Title.word]

/-- The names in a title are names, that of the agent among them. -/
lemma Title.Sound.agent {t : Title} (h : t.Sound) {owner : String} (howner : t.owner? = some owner) :
    (Title.agent owner).Sound := by
  intro name hname
  rw [List.mem_singleton.1 hname]
  cases t with
  | type _ => cases howner
  | _ =>
    obtain rfl := Option.some.inj howner
    exact h _ List.mem_cons_self

namespace Spot

variable {s s' : Spot}

/-- The parts of the id, between its hyphens. -/
def parts (s : Spot) : List (List Char) :=
  s.declaration.title.parts ++ Layout.numberPart s.number

lemma parts_ne_nil (s : Spot) : s.parts ≠ [] := by
  rw [parts, Title.parts]
  exact List.cons_ne_nil _ _

lemma toList_id (s : Spot) : s.id.toList = ['-'].intercalate s.parts :=
  Layout.toList_numbered (List.cons_ne_nil _ _) s.declaration.title.toList_id s.number

lemma hyphen_not_mem_parts (h : s.declaration.title.Sound) : ∀ part ∈ s.parts, '-' ∉ part := by
  intro part hpart
  rcases List.mem_append.1 hpart with hpart | hpart
  · exact h.hyphen_not_mem part hpart
  · exact Layout.hyphen_not_mem_numberPart s.number part hpart

/-- Ids tell spots apart, as far as title and number go. -/
lemma title_eq_of_id_eq (h : s.declaration.title.Sound) (h' : s'.declaration.title.Sound)
    (heq : s.id = s'.id) :
    s.declaration.title = s'.declaration.title ∧ s.number = s'.number := by
  obtain ⟨hid, hnumber⟩ := Layout.numbered_injective h.isAsked h'.isAsked heq
  exact ⟨Title.id_injective h h' hid, hnumber⟩

/-! ### Edges -/

/-- The edge of a member leads from a tool to its agent, or from the agent to any other member. -/
lemma ends_of_edge? {e : Edge} (h : s.edge? = some e) :
    ∃ owner, s.declaration.title.holder? = some owner ∧
      (s.declaration.title.word = "tool" ∧
          e.id = (Edge.joining s.id (Title.agent owner).id).id ∧
          e.source = s.id ∧ e.target = (Title.agent owner).id ∨
        e.id = (Edge.joining (Title.agent owner).id s.id).id ∧
          e.source = (Title.agent owner).id ∧ e.target = s.id) := by
  obtain ⟨declaration, number⟩ := s
  cases declaration with
  | agent a => cases h
  | type t => cases h
  | tool t =>
    obtain rfl := Option.some.inj h
    exact ⟨t.agent, rfl, .inl ⟨rfl, rfl, rfl, rfl⟩⟩
  | event t =>
    obtain rfl := Option.some.inj h
    exact ⟨t.agent, rfl, .inr ⟨rfl, rfl, rfl⟩⟩
  | state t =>
    obtain rfl := Option.some.inj h
    exact ⟨t.agent, rfl, .inr ⟨rfl, rfl, rfl⟩⟩

lemma kind_ne_agent {owner : String} (h : s.declaration.title.holder? = some owner) :
    s.declaration.content.kind ≠ .agent := by
  obtain ⟨declaration, number⟩ := s
  cases declaration with
  | agent a => cases h
  | _ => exact fun hkind => by cases hkind

lemma isSome_edge? {owner : String} (h : s.declaration.title.holder? = some owner) :
    ∃ e, s.edge? = some e := by
  obtain ⟨declaration, number⟩ := s
  cases declaration with
  | agent a => cases h
  | type t => cases h
  | tool t => exact ⟨_, rfl⟩
  | event t => exact ⟨_, rfl⟩
  | state t => exact ⟨_, rfl⟩

end Spot

/-- The parts of the id of an edge. -/
lemma toList_id_joining {source target : String} {parts parts' : List (List Char)} (h : parts ≠ [])
    (h' : parts' ≠ []) (hsource : source.toList = ['-'].intercalate parts)
    (htarget : target.toList = ['-'].intercalate parts') :
    (Edge.joining source target).id.toList =
      ['-'].intercalate ("edge".toList :: (parts ++ parts')) := by
  obtain ⟨first, rest, hcons⟩ := List.exists_cons_of_ne_nil
    (List.append_ne_nil_of_left_ne_nil h parts')
  rw [hcons, List.intercalate_cons_cons, ← hcons, Layout.intercalate_append h h', ← hsource,
    ← htarget]
  simp [Edge.joining]

namespace Spot

variable {s s' : Spot}

/-- The parts of the id of an edge: those of the ids of both ends. -/
lemma parts_of_edge? {e : Edge} (h : s.edge? = some e) :
    ∃ owner, s.declaration.title.holder? = some owner ∧ ∃ parts,
      e.id.toList = ['-'].intercalate ("edge".toList :: parts) ∧
      (s.declaration.title.word = "tool" ∧ parts = s.parts ++ (Title.agent owner).parts ∨
        parts = (Title.agent owner).parts ++ s.parts) := by
  obtain ⟨owner, howner, hends⟩ := ends_of_edge? h
  have hagent := (Title.agent owner).toList_id
  have hne : (Title.agent owner).parts ≠ [] := List.cons_ne_nil _ _
  refine ⟨owner, howner, ?_⟩
  rcases hends with ⟨hword, hid, -⟩ | ⟨hid, -⟩
  · exact ⟨_, hid ▸ toList_id_joining s.parts_ne_nil hne s.toList_id hagent, .inl ⟨hword, rfl⟩⟩
  · exact ⟨_, hid ▸ toList_id_joining hne s.parts_ne_nil hagent s.toList_id, .inr rfl⟩

lemma hyphen_not_mem_of_edge? (h : s.declaration.title.Sound) {owner : String}
    (howner : s.declaration.title.holder? = some owner) {parts : List (List Char)}
    (hparts : s.declaration.title.word = "tool" ∧ parts = s.parts ++ (Title.agent owner).parts ∨
      parts = (Title.agent owner).parts ++ s.parts) :
    ∀ part ∈ "edge".toList :: parts, '-' ∉ part := by
  have hmember := hyphen_not_mem_parts h
  have hagent := (h.agent (Title.owner?_of_holder? howner)).hyphen_not_mem
  intro part hpart
  rcases List.mem_cons.1 hpart with rfl | hpart
  · decide
  · rcases hparts with ⟨-, rfl⟩ | rfl
    · exact (List.mem_append.1 hpart).elim (hmember part) (hagent part)
    · exact (List.mem_append.1 hpart).elim (hagent part) (hmember part)

/-- The id of an edge tells the member. -/
lemma id_eq_of_edge_id_eq (h : s.declaration.title.Sound) (h' : s'.declaration.title.Sound)
    {e e' : Edge} (he : s.edge? = some e) (he' : s'.edge? = some e') (heq : e.id = e'.id) :
    s.id = s'.id := by
  obtain ⟨owner, howner, parts, hid, hparts⟩ := parts_of_edge? he
  obtain ⟨owner', howner', parts', hid', hparts'⟩ := parts_of_edge? he'
  have hsame : parts = parts' := by
    have hhyphens := hyphen_not_mem_of_edge? h howner hparts
    have hhyphens' := hyphen_not_mem_of_edge? h' howner' hparts'
    have htext := congrArg (fun id => (String.toList id).splitOn '-') heq
    rw [hid, hid', List.splitOn_intercalate '-' hhyphens (List.cons_ne_nil _ _),
      List.splitOn_intercalate '-' hhyphens' (List.cons_ne_nil _ _)] at htext
    exact (List.cons.inj htext).2
  have hmixed : ∀ {s : Spot}, s.declaration.title.word = "tool" → ∀ {owner : String} {rest rest'},
      s.parts ++ rest = (Title.agent owner).parts ++ rest' → False := by
    intro s hword owner rest rest' happend
    have hhead : s.declaration.title.word.toList = "agent".toList := (List.cons.inj happend).1
    rw [hword] at hhead
    revert hhead
    decide
  have hids : s.parts = s'.parts := by
    rcases hparts with ⟨hword, rfl⟩ | rfl <;> rcases hparts' with ⟨hword', rfl⟩ | rfl
    · exact (List.append_inj' hsame rfl).1
    · exact (hmixed hword hsame).elim
    · exact (hmixed hword' hsame.symm).elim
    · exact (List.append_inj hsame rfl).2
  apply String.toList_injective
  rw [s.toList_id, s'.toList_id, hids]

/-- What the edge of a member means. -/
def link? (s : Spot) : Option Link :=
  s.declaration.title.holder?.map fun owner =>
    ⟨(Title.agent owner).id, s.id, s.declaration.content⟩

lemma link?_eq_none (h : s.edge? = none) : s.link? = none := by
  rw [link?, Option.map_eq_none_iff, Option.eq_none_iff_forall_ne_some]
  intro owner howner
  obtain ⟨e, he⟩ := isSome_edge? howner
  rw [h] at he
  cases he

end Spot

/-! ## The spots of a text -/

namespace Outline

/-- The spots that a layout fills. -/
def spots (o : Outline) : List Spot := spotsFrom [] o.placed

/-- An outline that was read from a text. -/
structure WellRead (o : Outline) : Prop where
  sound : o.Sound
  owned : o.Owned

end Outline

lemma wellRead_outline (text : String) : (outline text).WellRead :=
  ⟨sound_outline text, owned_outline text⟩

namespace Outline

variable {o : Outline} (h : o.WellRead)
include h

lemma WellRead.mem_spots {s : Spot} :
    s ∈ o.spots ↔ (o.titled s.declaration.title)[s.number]? = some s.declaration := by
  rw [spots, mem_spotsFrom, h.owned.filter_placed]
  constructor
  · rintro ⟨i, hi, hget⟩
    rwa [hi, List.count_nil, Nat.zero_add]
  · intro hget
    exact ⟨s.number, by rw [List.count_nil, Nat.zero_add], hget⟩

lemma WellRead.sound_title {s : Spot} (hs : s ∈ o.spots) : s.declaration.title.Sound := by
  obtain ⟨i, -, hget⟩ := mem_spotsFrom.1 hs
  exact (h.sound.shows_layoutOn {}).1 _ (List.mem_of_mem_filter (List.mem_of_getElem? hget))

lemma WellRead.mem_nodes {n : Node} (hn : n ∈ (layout o).nodes) :
    ∃ s ∈ o.spots, n.id = s.id ∧ n.content = s.declaration.content := by
  have hmem : (n.id, n.content) ∈ (layout o).nodes.map fun n => (n.id, n.content) :=
    List.mem_map_of_mem hn
  rw [layout, (h.sound.shows_layoutOn {}).2.1] at hmem
  obtain ⟨s, hs, hshown⟩ := List.mem_map.1 hmem
  exact ⟨s, hs, congrArg Prod.fst hshown.symm, congrArg Prod.snd hshown.symm⟩

lemma WellRead.exists_node {s : Spot} (hs : s ∈ o.spots) :
    ∃ n ∈ (layout o).nodes, n.id = s.id ∧ n.content = s.declaration.content := by
  have hmem : s.shown ∈ o.spots.map Spot.shown := List.mem_map_of_mem hs
  rw [spots, ← (h.sound.shows_layoutOn {}).2.1] at hmem
  obtain ⟨n, hn, hshown⟩ := List.mem_map.1 hmem
  exact ⟨n, hn, congrArg Prod.fst hshown, congrArg Prod.snd hshown⟩

lemma WellRead.edges_eq : (layout o).edges = o.spots.filterMap Spot.edge? :=
  (h.sound.shows_layoutOn {}).2.2

lemma WellRead.nodup_ids : (o.spots.map Spot.id).Nodup := by
  have hnodes := congrArg (List.map Prod.fst) (h.sound.shows_layoutOn {}).2.1
  rw [List.map_map, List.map_map] at hnodes
  have hids : o.spots.map Spot.id = (layout o).nodes.map (·.id) := hnodes.symm
  rw [hids]
  exact h.sound.nodup_layout

/-- The agent of a member has a node. -/
lemma WellRead.exists_holder {s : Spot} (hs : s ∈ o.spots) {owner : String}
    (howner : s.declaration.title.holder? = some owner) :
    ∃ a : AgentDecl, a.name = owner ∧ ⟨.agent a, 0⟩ ∈ o.spots := by
  have hname : owner ∈ o.agents.map (·.name) := by
    by_contra hname
    have hget := h.mem_spots.1 hs
    rw [h.owned.titled_eq_nil (Title.owner?_of_holder? howner) hname] at hget
    cases hget
  obtain ⟨a, ha, rfl⟩ := exists_mem_placedAgents hname
  refine ⟨a, rfl, h.mem_spots.2 ?_⟩
  simp [titled, Declaration.title, find?_of_mem_placedAgents ha]

/-- Edges have ids of their own. -/
lemma WellRead.nodup_edges : ((layout o).edges.map (·.id)).Nodup := by
  rw [h.edges_eq, List.map_filterMap, List.Nodup, List.pairwise_filterMap]
  refine (List.pairwise_map.1 h.nodup_ids).imp_of_mem fun {s s'} hs hs' hne id hid id' hid' => ?_
  obtain ⟨e, he, rfl⟩ := Option.map_eq_some_iff.1 hid
  obtain ⟨e', he', rfl⟩ := Option.map_eq_some_iff.1 hid'
  exact fun heq => hne (Spot.id_eq_of_edge_id_eq (h.sound_title hs) (h.sound_title hs') he he' heq)

/-- An agent has another id than what is none. -/
lemma WellRead.agent_id_ne {s : Spot} (hs : s ∈ o.spots) {a : AgentDecl}
    (ha : ⟨.agent a, 0⟩ ∈ o.spots) (hword : s.declaration.title.word ≠ "agent") :
    (Title.agent a.name).id ≠ s.id := by
  intro heq
  have htitle := (Spot.title_eq_of_id_eq (s := ⟨.agent a, 0⟩) (h.sound_title ha) (h.sound_title hs)
    heq).1
  rw [← htitle] at hword
  exact hword rfl

/-- What is no agent lies on its own edge and on no other. -/
lemma WellRead.filter_meets {s : Spot} (hs : s ∈ o.spots)
    (hword : s.declaration.title.word ≠ "agent") :
    (layout o).edges.filter (·.meets s.id) = s.edge?.toList := by
  rw [h.edges_eq]
  refine filter_filterMap_key h.nodup_ids hs fun s' hs' e he => ?_
  obtain ⟨owner, howner, hends⟩ := Spot.ends_of_edge? he
  obtain ⟨a, rfl, ha⟩ := h.exists_holder hs' howner
  have hne := h.agent_id_ne hs ha hword
  rcases hends with ⟨-, -, hsource, htarget⟩ | ⟨-, hsource, htarget⟩
  · rw [Edge.meets, hsource, htarget, beq_eq_false_iff_ne.2 hne, Bool.or_false]
  · rw [Edge.meets, hsource, htarget, beq_eq_false_iff_ne.2 hne, Bool.false_or]

/-! ## What is found -/

/-- The ends of an edge are an agent and a member. -/
lemma WellRead.exists_ends {e : Edge} (he : e ∈ (layout o).edges) :
    ∃ hub ∈ (layout o).nodes, ∃ member ∈ (layout o).nodes, hub.kind = .agent ∧
      member.kind ≠ .agent ∧ Star.Joins e hub.id member.id := by
  rw [h.edges_eq, List.mem_filterMap] at he
  obtain ⟨s, hs, hedge⟩ := he
  obtain ⟨owner, howner, hends⟩ := Spot.ends_of_edge? hedge
  obtain ⟨a, rfl, ha⟩ := h.exists_holder hs howner
  obtain ⟨hub, hhub, hhubId, hhubContent⟩ := h.exists_node ha
  obtain ⟨member, hmember, hmemberId, hmemberContent⟩ := h.exists_node hs
  refine ⟨hub, hhub, member, hmember, ?_, ?_, ?_⟩
  · rw [Node.kind, hhubContent]
    rfl
  · rw [Node.kind, hmemberContent]
    exact Spot.kind_ne_agent howner
  · rw [Star.Joins, hhubId, hmemberId]
    rcases hends with ⟨-, -, hsource, htarget⟩ | ⟨-, hsource, htarget⟩
    · exact .inr ⟨hsource, htarget⟩
    · exact .inl ⟨hsource, htarget⟩

/-- The edge of a member means that it belongs to its agent. -/
lemma WellRead.link?_eq {s : Spot} (hs : s ∈ o.spots) {e : Edge} (he : s.edge? = some e) :
    (layout o).link? e = s.link? := by
  obtain ⟨owner, howner, hends⟩ := Spot.ends_of_edge? he
  obtain ⟨a, rfl, ha⟩ := h.exists_holder hs howner
  obtain ⟨hub, hhub, hhubId, hhubContent⟩ := h.exists_node ha
  obtain ⟨member, hmember, hmemberId, hmemberContent⟩ := h.exists_node hs
  have hhubKind : hub.kind = .agent := by
    rw [Node.kind, hhubContent]
    rfl
  have hmemberKind : member.kind ≠ .agent := by
    rw [Node.kind, hmemberContent]
    exact Spot.kind_ne_agent howner
  have hhubNode : (layout o).node? (Title.agent a.name).id = some hub := by
    have hnode := Graph.node?_eq_some h.sound.nodup_layout hhub
    rwa [hhubId] at hnode
  have hmemberNode : (layout o).node? s.id = some member := by
    rw [← hmemberId]
    exact Graph.node?_eq_some h.sound.nodup_layout hmember
  have hlink : s.link? = some ⟨hub.id, member.id, member.content⟩ := by
    rw [Spot.link?, howner, hmemberId, hmemberContent, hhubId]
    rfl
  rw [hlink]
  rcases hends with ⟨-, -, hsource, htarget⟩ | ⟨-, hsource, htarget⟩
  · simp only [Graph.link?, hsource, htarget, hhubNode, hmemberNode, if_pos hhubKind,
      if_neg hmemberKind]
  · simp only [Graph.link?, hsource, htarget, hhubNode, hmemberNode, if_pos hhubKind,
      if_neg hmemberKind]

lemma WellRead.links_eq : (layout o).links = o.spots.filterMap Spot.link? := by
  rw [Graph.links, h.edges_eq, List.filterMap_filterMap]
  apply List.filterMap_congr
  intro s hs
  cases he : s.edge? with
  | none => exact (Spot.link?_eq_none he).symm
  | some e => exact h.link?_eq hs he

/-- A member belongs to one agent. -/
lemma WellRead.filter_links {s : Spot} (hs : s ∈ o.spots) :
    (layout o).links.filter (·.member == s.id) = s.link?.toList := by
  rw [h.links_eq]
  refine filter_filterMap_key h.nodup_ids hs fun s' _ l hl => ?_
  obtain ⟨owner, -, rfl⟩ := Option.map_eq_some_iff.1 hl
  rfl

end Outline

/-! ## What is found -/

/-- A declaration that is well formed. -/
def Declaration.Sound : Declaration → Prop
  | .agent a => a.Sound
  | .tool t => t.Sound
  | .event e => e.Sound
  | .state s => s.Sound
  | .type t => t.Sound

lemma Outline.Sound.declarations {o : Outline} (h : o.Sound) : ∀ d ∈ o.declarations, d.Sound := by
  intro d hd
  simp only [Outline.declarations, List.mem_append, List.mem_map] at hd
  rcases hd with (((⟨a, ha, rfl⟩ | ⟨t, ht, rfl⟩) | ⟨e, he, rfl⟩) | ⟨s, hs, rfl⟩) | ⟨t, ht, rfl⟩
  · exact h.agents a ((firstsBy_sublist _ _).subset ha)
  · exact h.tools t ht
  · exact h.events e he
  · exact h.states s ((firstsBy_sublist _ _).subset hs)
  · exact h.types t ht

namespace Lint

lemma repeatedIds_eq_nil {seen : List String} {nodes : List Node}
    (hnodup : (nodes.map (·.id)).Nodup) (hseen : ∀ n ∈ nodes, n.id ∉ seen) :
    repeatedIds seen nodes = [] := by
  induction nodes generalizing seen with
  | nil => rfl
  | cons n rest ih =>
    rw [List.map_cons, List.nodup_cons] at hnodup
    rw [List.forall_mem_cons] at hseen
    rw [repeatedIds, if_neg (by rw [List.contains_iff_mem]; exact hseen.1), List.nil_append]
    refine ih hnodup.2 fun m hm hmem => ?_
    rcases List.mem_cons.1 hmem with heq | hmem
    · exact hnodup.1 (heq ▸ List.mem_map_of_mem hm)
    · exact hseen.2 m hm hmem

/-- The fields of nodes whose values a script puts between quotes. -/
def quotedFields : List String := ["description", "version", "model", "provider"]

/-- A finding about a value that does not fit between quotes. -/
def IsBadValue (g : Graph) (c : Cause) : Prop :=
  ∃ n ∈ g.nodes, ∃ field ∈ quotedFields, c = .badValue n.kind n.label field

variable {g : Graph} {n : Node} {c : Cause}

lemma isBadValue_of_mem_badValue (hn : n ∈ g.nodes) {field : String}
    (hfield : field ∈ quotedFields) {value : Option String} (hc : c ∈ badValue n field value) :
    IsBadValue g c := by
  unfold badValue at hc
  split at hc
  · exact ⟨n, hn, field, hfield, List.mem_singleton.1 hc⟩
  · cases hc

/-- A well-formed declaration has a label that can be read, and a signature if it needs one. -/
lemma isName_label {d : Declaration} (h : d.Sound) : isName d.content.label.toList = true := by
  cases d with
  | agent a => exact h.isName
  | tool t => exact h.isName
  | event e => exact h.1
  | state s =>
    change isName Layout.stateLabel.toList = true
    decide
  | type t => exact h.1

lemma badSignature_eq_nil {t : ToolDecl} (h : t.Sound) :
    badSignature ⟨t.name, some t.params, t.returns, t.description⟩ = [] := by
  have hparams : t.params.toList.contains ')' = false := by
    rw [← Bool.not_eq_true, List.contains_iff_mem]
    exact h.params.2.1
  have hreturns : ¬(t.returns.getD "" ≠ "" ∧ isType (t.returns.getD "").toList = false) := by
    rintro ⟨hne, htype⟩
    cases hsome : t.returns with
    | none =>
      rw [hsome] at hne
      exact hne rfl
    | some type =>
      rw [hsome, Option.getD_some, (h.returns type hsome).1] at htype
      cases htype
  simp only [badSignature, Option.any_some, hparams, if_neg hreturns, Bool.false_eq_true, if_false,
    List.append_nil]

lemma isBadValue_of_mem_unreadable {ls : Links} (hn : n ∈ g.nodes) {d : Declaration} (hd : d.Sound)
    (hcontent : n.content = d.content) (hc : c ∈ unreadable ls n) : IsBadValue g c := by
  have hlabel : isName n.label.toList = true := by
    rw [Node.label, hcontent]
    exact isName_label hd
  have hfield : ∀ field ∈ quotedFields, ∀ value, c ∈ badValue n field value → IsBadValue g c :=
    fun field hfield value => isBadValue_of_mem_badValue hn hfield
  rw [unreadable, hlabel, Bool.not_true, Bool.and_false, if_neg Bool.false_ne_true, List.nil_append,
    hcontent] at hc
  cases d with
  | agent a =>
    simp only [Declaration.content, List.mem_append] at hc
    rcases hc with ((hc | hc) | hc) | hc
    · exact hfield "description" (by decide) _ hc
    · exact hfield "version" (by decide) _ hc
    · exact hfield "model" (by decide) _ hc
    · exact hfield "provider" (by decide) _ hc
  | tool t =>
    simp only [Declaration.content, badSignature_eq_nil hd, List.nil_append] at hc
    exact hfield "description" (by decide) _ hc
  | event e => cases hc
  | state s => cases hc
  | type t => cases hc

end Lint

namespace Outline

variable {o : Outline} (h : o.WellRead)
include h

lemma WellRead.missingNodes_eq_nil : Lint.missingNodes (layout o) = [] := by
  rw [Lint.missingNodes, List.flatMap_eq_nil_iff]
  intro e he
  rw [List.map_eq_nil_iff, List.filter_eq_nil_iff]
  obtain ⟨hub, hhub, member, hmember, -, -, hjoins⟩ := h.exists_ends he
  intro id hid
  have hend : ∃ n ∈ (layout o).nodes, n.id = id := by
    rcases hjoins with ⟨hsource, htarget⟩ | ⟨hsource, htarget⟩ <;>
      rw [hsource, htarget, List.mem_pair] at hid <;> rcases hid with rfl | rfl
    · exact ⟨hub, hhub, rfl⟩
    · exact ⟨member, hmember, rfl⟩
    · exact ⟨member, hmember, rfl⟩
    · exact ⟨hub, hhub, rfl⟩
  obtain ⟨n, hn, rfl⟩ := hend
  rw [Graph.node?_eq_some h.sound.nodup_layout hn]
  exact Bool.false_ne_true

/-- A tool or an event handler of the layout is a member. -/
lemma WellRead.exists_holder_of_mem_nodesOf {n : Node} {kind : NodeKind}
    (hkind : kind = .tool ∨ kind = .event) (hn : n ∈ (layout o).nodesOf kind) :
    ∃ s ∈ o.spots, n.id = s.id ∧ n.content = s.declaration.content ∧
      ∃ owner, s.link? = some ⟨owner, s.id, s.declaration.content⟩ := by
  obtain ⟨hn, hsame⟩ := List.mem_filter.1 hn
  obtain ⟨s, hs, hid, hcontent⟩ := h.mem_nodes hn
  refine ⟨s, hs, hid, hcontent, ?_⟩
  have hdeclared : s.declaration.content.kind = kind := by
    rw [← hcontent]
    exact beq_iff_eq.1 hsame
  cases hdeclaration : s.declaration <;> rw [hdeclaration] at hdeclared <;> subst hdeclared <;>
    simp [Declaration.content, Content.kind] at hkind <;>
    exact ⟨_, by rw [Spot.link?, hdeclaration]; rfl⟩

lemma WellRead.sharedTools_eq_nil : Lint.sharedTools (layout o) (layout o).links = [] := by
  rw [Lint.sharedTools, List.filterMap_eq_nil_iff]
  intro t ht
  obtain ⟨s, hs, hid, hcontent, owner, hlink⟩ := h.exists_holder_of_mem_nodesOf (.inl rfl) ht
  have hkind : (s.declaration.content.kind == .tool) = true := by
    rw [← hcontent]
    exact (List.mem_filter.1 ht).2
  have hlinks : ((layout o).links.filter fun l => l.kind == .tool && l.member == t.id) =
      [⟨owner, s.id, s.declaration.content⟩] := by
    rw [← List.filter_filter, hid, h.filter_links hs, hlink]
    exact List.filter_cons_of_pos hkind
  have howners : (layout o).links.ownersOf t.id = [owner] := by
    rw [Links.ownersOf, hlinks, List.map_singleton, List.eraseDups_cons, List.filter_nil,
      List.eraseDups_nil, List.mergeSort_singleton]
  rw [howners]
  rfl

lemma WellRead.holds_of_mem_nodesOf {n : Node} {kind : NodeKind}
    (hkind : kind = .tool ∨ kind = .event) (hn : n ∈ (layout o).nodesOf kind) :
    (layout o).links.holds kind n.id = true := by
  obtain ⟨s, hs, hid, hcontent, owner, hlink⟩ := h.exists_holder_of_mem_nodesOf hkind hn
  have hmem : ⟨owner, s.id, s.declaration.content⟩ ∈ (layout o).links := by
    rw [h.links_eq, List.mem_filterMap]
    exact ⟨s, hs, hlink⟩
  rw [Links.holds, List.any_eq_true]
  refine ⟨_, hmem, ?_⟩
  rw [hid, beq_self_eq_true, Bool.and_true, Link.kind, ← hcontent]
  exact (List.mem_filter.1 hn).2

lemma WellRead.looseTools_eq_nil : Lint.looseTools (layout o) (layout o).links = [] := by
  rw [Lint.looseTools]
  split
  · rfl
  · rw [List.map_eq_nil_iff, List.filter_eq_nil_iff]
    intro t ht
    rw [h.holds_of_mem_nodesOf (.inl rfl) ht]
    exact Bool.false_ne_true

lemma WellRead.looseEvents_eq_nil : Lint.looseEvents (layout o) (layout o).links = [] := by
  rw [Lint.looseEvents, List.map_eq_nil_iff, List.filter_eq_nil_iff]
  intro e he
  rw [h.holds_of_mem_nodesOf (.inr rfl) he]
  exact Bool.false_ne_true

/-- Of a layout, nothing is found but values that do not fit between quotes. -/
lemma WellRead.isBadValue_of_mem_causes {c : Lint.Cause} (hc : c ∈ Lint.causes (layout o)) :
    Lint.IsBadValue (layout o) c := by
  rw [Lint.causes, Lint.repeatedIds_eq_nil h.sound.nodup_layout fun _ _ => List.not_mem_nil,
    h.missingNodes_eq_nil, h.sharedTools_eq_nil, h.looseTools_eq_nil, h.looseEvents_eq_nil,
    List.mem_append] at hc
  rcases hc with hc | hc
  · cases hc
  · obtain ⟨n, hn, hc⟩ := List.mem_flatMap.1 hc
    obtain ⟨s, hs, -, hcontent⟩ := h.mem_nodes hn
    obtain ⟨i, -, hget⟩ := mem_spotsFrom.1 hs
    have hplaced : s.declaration ∈ o.placed :=
      List.mem_of_mem_filter (List.mem_of_getElem? hget)
    exact Lint.isBadValue_of_mem_unreadable hn
      (h.sound.declarations _ (h.owned.perm_placed.subset hplaced)) hcontent hc

end Outline

/-! ## Forests -/

/-- A graph is the forest of an outline: a star for every agent, and the types beside the stars. -/
structure IsForest (o : Outline) (g : Graph) : Prop where
  node_ids : (g.nodes.map (·.id)).Nodup
  edge_ids : (g.edges.map (·.id)).Nodup
  /-- The declarations of a title have nodes, numbered in the order of the declarations. -/
  declared : ∀ t k d, (o.titled t)[k]? = some d →
    ∃ n ∈ g.nodes, n.id = Layout.numbered t.id k ∧ n.content = d.content
  /-- And there are no other nodes. -/
  nodes : ∀ n ∈ g.nodes, ∃ t k d, (o.titled t)[k]? = some d ∧ n.id = Layout.numbered t.id k ∧
    n.content = d.content
  /-- Every edge leads between an agent and something else, in either direction. -/
  edges : ∀ e ∈ g.edges, ∃ hub ∈ g.nodes, ∃ member ∈ g.nodes, hub.kind = .agent ∧
    member.kind ≠ .agent ∧ Star.Joins e hub.id member.id
  /-- A tool, an event handler or the state block of an agent has one edge, that to the agent. -/
  members : ∀ t k d, (o.titled t)[k]? = some d → ∀ owner, t.holder? = some owner →
    ∃ e, g.edges.filter (·.meets (Layout.numbered t.id k)) = [e] ∧
      Star.Joins e (Title.agent owner).id (Layout.numbered t.id k)
  /-- A type has none. -/
  types : ∀ name k d, (o.titled (.type name))[k]? = some d →
    g.edges.filter (·.meets (Layout.numbered (Title.type name).id k)) = []
  /-- All that is found are values that hold a quote or a line break. -/
  lint : ∀ d ∈ g.lint, ∃ n ∈ g.nodes, ∃ field ∈ Lint.quotedFields,
    d = (Lint.Cause.badValue n.kind n.label field).toDiagnostic

lemma Outline.title_of_mem_titled {o : Outline} {t : Title} {d : Declaration} (h : d ∈ o.titled t) :
    d.title = t := by
  rw [← Outline.filter_declarations] at h
  exact of_decide_eq_true (List.mem_filter.1 h).2

/-- **A layout is a forest of stars.** -/
theorem isForest_layout (text : String) : IsForest (outline text) (layout (outline text)) := by
  have h := wellRead_outline text
  have hspot : ∀ {t k d}, ((outline text).titled t)[k]? = some d →
      d.title = t ∧ (⟨d, k⟩ : Spot) ∈ (outline text).spots := by
    intro t k d hget
    have htitle := Outline.title_of_mem_titled (List.mem_of_getElem? hget)
    exact ⟨htitle, h.mem_spots.2 (htitle ▸ hget)⟩
  constructor
  case node_ids => exact h.sound.nodup_layout
  case edge_ids => exact h.nodup_edges
  case declared =>
    intro t k d hget
    obtain ⟨rfl, hs⟩ := hspot hget
    exact h.exists_node hs
  case nodes =>
    intro n hn
    obtain ⟨s, hs, hid, hcontent⟩ := h.mem_nodes hn
    exact ⟨s.declaration.title, s.number, s.declaration, h.mem_spots.1 hs, hid, hcontent⟩
  case edges => exact fun e he => h.exists_ends he
  case members =>
    intro t k d hget owner howner
    obtain ⟨rfl, hs⟩ := hspot hget
    obtain ⟨e, he⟩ := Spot.isSome_edge? (s := ⟨d, k⟩) howner
    obtain ⟨owner', howner', hends⟩ := Spot.ends_of_edge? he
    obtain rfl : owner = owner' := Option.some.inj (howner.symm.trans howner')
    refine ⟨e, ?_, ?_⟩
    · have hfilter := h.filter_meets hs (Title.word_ne_agent howner)
      rw [he] at hfilter
      exact hfilter
    · rcases hends with ⟨-, -, hsource, htarget⟩ | ⟨-, hsource, htarget⟩
      · exact .inr ⟨hsource, htarget⟩
      · exact .inl ⟨hsource, htarget⟩
  case types =>
    intro name k d hget
    obtain ⟨htitle, hs⟩ := hspot hget
    have hfilter := h.filter_meets hs (by simp [htitle, Title.word])
    cases d <;> cases htitle
    exact hfilter
  case lint =>
    intro d hd
    obtain ⟨c, hc, rfl⟩ := List.mem_map.1 hd
    obtain ⟨n, hn, field, hfield, rfl⟩ := h.isBadValue_of_mem_causes hc
    exact ⟨n, hn, field, hfield, rfl⟩

end AgentScript
