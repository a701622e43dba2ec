import AgentScript.Proofs.Graph.Entries
import Mathlib.Logic.Relation

/-!
# Changes that the script of a graph does not show

An editor changes more about a graph than its script can tell: nodes are dragged about, edges are
drawn the other way round, drawn again, or left dangling.  A *retouch* is one such change
(`Graph.Retouch`).  It leaves alone who has which members, so a graph has the same script after any
number of retouches (`Graph.script_of_retouched`).

Most retouches leave the meanings of the edges as they are, link by link.  Two do not: a link may go
that stood there before, and neighbouring links may change places.  Of the links, a script tells
only those between one agent and the members of one kind, each in its first place, and of the states
the last one; that much stays (`Links.Alike`).

Nothing is asked of the ids.  Where they collide, the first node with an id stands for all of them,
as it does for the script.
-/

namespace AgentScript

/-! ## Retouches -/

/-- What a script may tell of a node. -/
def Node.said (n : Node) : String × Content := (n.id, n.content)

namespace Edge

/-- What a script may tell of an edge. -/
def ends (e : Edge) : String × String := (e.source, e.target)

/-- The edge the other way round. -/
def reverse (e : Edge) : Edge where
  id := e.id
  source := e.target
  target := e.source
  sourceHandle := e.targetHandle
  targetHandle := e.sourceHandle

/-- Two edges join the same ids, in the same direction or in opposite ones. -/
def SameEnds (e e' : Edge) : Prop := e'.ends = e.ends ∨ e'.ends = e.reverse.ends

end Edge

namespace Graph

/-- The edge leads between the agent and the member, in either direction. -/
def Joins (g : Graph) (e : Edge) (agent member : Node) : Prop :=
  agent.kind = .agent ∧ member.kind ≠ .agent ∧
    (g.node? e.source = some agent ∧ g.node? e.target = some member ∨
      g.node? e.source = some member ∧ g.node? e.target = some agent)

/-- An end of the edge is no node, or both ends are agents, or neither is. -/
def MeansNothing (g : Graph) (e : Edge) : Prop :=
  g.node? e.source = none ∨ g.node? e.target = none ∨
    ∃ s t, g.node? e.source = some s ∧ g.node? e.target = some t ∧
      (s.kind = .agent ↔ t.kind = .agent)

/-- One change to a graph that its script does not show. -/
inductive Retouch : Graph → Graph → Prop
  /-- Nodes are moved. -/
  | move {g : Graph} {nodes : List Node} (hnodes : nodes.map Node.said = g.nodes.map Node.said) :
    Retouch g { g with nodes }
  /-- Edges get other ids or handles. -/
  | relabel {g : Graph} {edges : List Edge} (hedges : edges.map Edge.ends = g.edges.map Edge.ends) :
    Retouch g { g with edges }
  /-- An edge is turned round. -/
  | reverse {g : Graph} {xs ys : List Edge} {e : Edge} (hedges : g.edges = xs ++ e :: ys) :
    Retouch g { g with edges := xs ++ e.reverse :: ys }
  /-- An edge that means nothing is deleted. -/
  | drop {g : Graph} {xs ys : List Edge} {e : Edge} (hedges : g.edges = xs ++ e :: ys)
      (he : g.MeansNothing e) : Retouch g { g with edges := xs ++ ys }
  /-- An edge that means nothing is inserted. -/
  | insert {g : Graph} {xs ys : List Edge} {e : Edge} (hedges : g.edges = xs ++ ys)
      (he : g.MeansNothing e) : Retouch g { g with edges := xs ++ e :: ys }
  /-- An edge between an agent and a tool or an event handler is deleted, where an earlier edge joins
  the two. -/
  | dropRepeat {g : Graph} {xs ys : List Edge} {e e' : Edge} {agent member : Node}
      (hedges : g.edges = xs ++ e :: ys) (hjoins : g.Joins e agent member)
      (hkind : member.kind = .tool ∨ member.kind = .event) (he' : e' ∈ xs) (hends : e.SameEnds e') :
    Retouch g { g with edges := xs ++ ys }
  /-- Two neighbouring edges change places that do not join the same agent to members of the same
  kind. -/
  | swap {g : Graph} {xs ys : List Edge} {e e' : Edge} (hedges : g.edges = xs ++ e :: e' :: ys)
      (hapart : ∀ agent member member', g.Joins e agent member → g.Joins e' agent member' →
        member.kind ≠ member'.kind) :
    Retouch g { g with edges := xs ++ e' :: e :: ys }

end Graph

/-! ## What edges mean -/

section Edges

variable {g h : Graph} {e e' : Edge} {l : Link}

/-- An edge means that its member belongs to its agent. -/
lemma link?_eq_some_iff : g.link? e = some l ↔
    ∃ agent member, g.Joins e agent member ∧ l = ⟨agent.id, member.id, member.content⟩ := by
  unfold Graph.link? Graph.Joins
  constructor
  · intro hlink
    split at hlink
    next s t hs ht =>
      split at hlink
      next hsource =>
        obtain ⟨htarget, hlink⟩ := Option.ite_none_left_eq_some.1 hlink
        exact ⟨s, t, ⟨hsource, htarget, .inl ⟨hs, ht⟩⟩, (Option.some.inj hlink).symm⟩
      next hsource =>
        obtain ⟨htarget, hlink⟩ := Option.ite_none_right_eq_some.1 hlink
        exact ⟨t, s, ⟨htarget, hsource, .inr ⟨hs, ht⟩⟩, (Option.some.inj hlink).symm⟩
    next => cases hlink
  · rintro ⟨agent, member, ⟨hagent, hmember, ⟨hs, ht⟩ | ⟨hs, ht⟩⟩, rfl⟩
    · simp only [hs, ht, if_pos hagent, if_neg hmember]
    · simp only [hs, ht, if_pos hagent, if_neg hmember]

/-- The agent of an edge is the node with its id. -/
lemma Graph.Joins.node?_agent {agent member : Node} (h : g.Joins e agent member) :
    g.node? agent.id = some agent := by
  obtain ⟨-, -, ⟨hfound, -⟩ | ⟨-, hfound⟩⟩ := h
  · rwa [(exists_node_of_node? hfound).2]
  · rwa [(exists_node_of_node? hfound).2]

lemma link?_eq_none_of_meansNothing (he : g.MeansNothing e) : g.link? e = none := by
  unfold Graph.link?
  rcases he with hs | ht | ⟨s, t, hs, ht, hkinds⟩
  · simp only [hs]
  · cases hs : g.node? e.source with
    | none => rfl
    | some s => simp only [ht]
  · by_cases hsource : s.kind = .agent
    · simp only [hs, ht, if_pos hsource, if_pos (hkinds.1 hsource)]
    · simp only [hs, ht, if_neg hsource, if_neg (hkinds.not.1 hsource)]

/-- The direction of an edge does not matter. -/
lemma link?_reverse (g : Graph) (e : Edge) : g.link? e.reverse = g.link? e := by
  apply Option.ext
  intro l
  rw [link?_eq_some_iff, link?_eq_some_iff]
  refine exists_congr fun agent => exists_congr fun member => and_congr_left fun _ => ?_
  exact and_congr_right fun _ => and_congr_right fun _ => by
    rw [Edge.reverse, and_comm, or_comm, and_comm]

/-- Neither ids nor handles of edges matter. -/
lemma link?_of_ends (h : e'.ends = e.ends) : g.link? e' = g.link? e := by
  obtain ⟨hsource, htarget⟩ := Prod.mk.inj h
  rw [Graph.link?, Graph.link?, hsource, htarget]

lemma link?_of_sameEnds (h : e.SameEnds e') : g.link? e' = g.link? e := by
  rcases h with h | h
  · exact link?_of_ends h
  · rw [link?_of_ends h, link?_reverse]

/-- Nodes that say the same are looked up by the same ids. -/
lemma said_node?_eq (hnodes : h.nodes.map Node.said = g.nodes.map Node.said) (id : String) :
    (h.node? id).map Node.said = (g.node? id).map Node.said := by
  have hlooked : ∀ g : Graph,
      (g.node? id).map Node.said = (g.nodes.map Node.said).find? (·.1 == id) := by
    intro g
    rw [List.find?_map]
    rfl
  rw [hlooked, hlooked, hnodes]

/-- Where the nodes stand does not matter. -/
lemma link?_of_said (hnodes : h.nodes.map Node.said = g.nodes.map Node.said) (e : Edge) :
    h.link? e = g.link? e := by
  have hsource := said_node?_eq hnodes e.source
  have htarget := said_node?_eq hnodes e.target
  rw [Graph.link?, Graph.link?]
  cases hs : g.node? e.source with
  | none =>
    rw [hs, Option.map_none, Option.map_eq_none_iff] at hsource
    rw [hsource]
  | some s =>
    rw [hs, Option.map_some, Option.map_eq_some_iff] at hsource
    obtain ⟨⟨_, position, _⟩, hs', hsaid⟩ := hsource
    obtain ⟨rfl, rfl⟩ := Prod.mk.inj hsaid
    cases ht : g.node? e.target with
    | none =>
      rw [ht, Option.map_none, Option.map_eq_none_iff] at htarget
      rw [hs', htarget]
    | some t =>
      rw [ht, Option.map_some, Option.map_eq_some_iff] at htarget
      obtain ⟨⟨_, position', _⟩, ht', hsaid'⟩ := htarget
      obtain ⟨rfl, rfl⟩ := Prod.mk.inj hsaid'
      rw [hs', ht']
      rfl

end Edges

/-! ## Links that come to the same -/

/-- The first places of what passes a test. -/
lemma filter_eraseDups {α : Type} [BEq α] [LawfulBEq α] (p : α → Bool) (xs : List α) :
    xs.eraseDups.filter p = (xs.filter p).eraseDups := by
  match xs with
  | [] => rfl
  | x :: xs =>
    have hcomm : (xs.filter fun y => !y == x).filter p = (xs.filter p).filter fun y => !y == x :=
      List.filter_comm ..
    rw [List.eraseDups_cons, List.filter_cons, List.filter_cons, filter_eraseDups, hcomm]
    split
    next => rw [List.eraseDups_cons]
    next hp =>
      have hfilter : ((xs.filter p).filter fun y => !y == x) = xs.filter p := by
        apply List.filter_eq_self.2
        intro y hy
        rw [Bool.not_eq_true', beq_eq_false_iff_ne]
        rintro rfl
        exact hp (List.mem_filter.1 hy).2
      rw [hfilter]
termination_by xs.length
decreasing_by exact Nat.lt_succ_of_le (List.length_filter_le _ _)

namespace Links

/-- The links between an agent and the members of one kind. -/
def within (ls : Links) (agent : String) (kind : NodeKind) : Links :=
  ls.filter fun l => l.agent == agent && l.kind == kind

/-- Under every agent the links lead to the same members of each kind, in the order of their first
links, and to the same last state. -/
structure Alike (ls ls' : Links) : Prop where
  members : ∀ agent kind, (ls.within agent kind).eraseDups = (ls'.within agent kind).eraseDups
  state : ∀ agent, ls.stateUnder? agent = ls'.stateUnder? agent

variable {ls ls' xs ys : Links} {l l' : Link}

lemma alike_refl (ls : Links) : ls.Alike ls := ⟨fun _ _ => rfl, fun _ => rfl⟩

lemma Alike.symm (h : ls.Alike ls') : ls'.Alike ls :=
  ⟨fun agent kind => (h.members agent kind).symm, fun agent => (h.state agent).symm⟩

/-- Links that are the same within every agent and every kind. -/
lemma alike_of_within (h : ∀ agent kind, ls.within agent kind = ls'.within agent kind) :
    ls.Alike ls' :=
  ⟨fun agent kind => congrArg List.eraseDups (h agent kind),
    fun agent => congrArg List.getLast? (h agent .state)⟩

/-- A link that stood there before does not count again, unless it is to a state. -/
lemma alike_dropRepeat (hkind : l.kind ≠ .state) (hl : l ∈ xs) :
    Alike (xs ++ l :: ys) (xs ++ ys) := by
  refine ⟨fun agent kind => ?_, fun agent => ?_⟩
  · unfold within
    rw [List.filter_append, List.filter_append, List.filter_cons]
    split
    next hkeys =>
      have hmem : l ∈ xs.filter fun l => l.agent == agent && l.kind == kind :=
        List.mem_filter.2 ⟨hl, hkeys⟩
      rw [List.eraseDups_append, List.eraseDups_append, List.cons_removeAll, if_neg]
      rw [Bool.not_eq_false, List.contains_iff_mem]
      exact hmem
    next => rfl
  · have hnot : (l.agent == agent && l.kind == .state) = false := by
      rw [beq_eq_false_iff_ne.2 hkind, Bool.and_false]
    unfold stateUnder?
    rw [List.filter_append, List.filter_append, List.filter_cons, hnot, if_neg Bool.false_ne_true]

/-- Links of different agents, or to members of different kinds, may change places. -/
lemma alike_swap (hapart : l.agent = l'.agent → l.kind ≠ l'.kind) :
    Alike (xs ++ l :: l' :: ys) (xs ++ l' :: l :: ys) := by
  apply alike_of_within
  intro agent kind
  have hone : ¬ ((l.agent == agent && l.kind == kind) = true ∧
      (l'.agent == agent && l'.kind == kind) = true) := by
    simp only [Bool.and_eq_true, beq_iff_eq]
    rintro ⟨⟨rfl, rfl⟩, hagent, hkind⟩
    exact hapart hagent.symm hkind.symm
  unfold within
  rw [List.filter_append, List.filter_append, List.filter_cons, List.filter_cons, List.filter_cons,
    List.filter_cons]
  split
  next hfirst =>
    have hsecond := fun hsecond => hone ⟨hfirst, hsecond⟩
    rw [if_neg hsecond, if_neg hsecond]
  next => rfl

/-! ### What is read off the links -/

/-- What the members of one kind say is said by the links to them. -/
lemma filterMap_of {α : Type} {kind : NodeKind} {f : Content → Option α}
    (hf : ∀ c, c.kind ≠ kind → f c = none) (ls : Links) (agent : String) :
    (ls.of agent).filterMap (f ·.content) =
      (ls.within agent kind).eraseDups.filterMap (f ·.content) := by
  have hwithin : ls.within agent kind = (ls.filter (·.agent == agent)).filter (·.kind == kind) := by
    rw [within, List.filter_filter]
    exact congrArg (ls.filter ·) (funext fun l => Bool.and_comm _ _)
  rw [hwithin, ← filter_eraseDups, List.filterMap_filter, of]
  apply List.filterMap_congr
  intro l _
  by_cases hkind : l.content.kind = kind
  · rw [Link.kind, if_pos (beq_iff_eq.2 hkind)]
  · rw [Link.kind, if_neg (by rwa [beq_iff_eq]), hf l.content hkind]

lemma Alike.toolsUnder_eq (h : ls.Alike ls') (agent : String) :
    ls.toolsUnder agent = ls'.toolsUnder agent := by
  have htool : ∀ c : Content, c.kind ≠ .tool → c.tool? = none := by
    intro c hc
    cases c with
    | tool _ => exact absurd rfl hc
    | _ => rfl
  rw [toolsUnder, toolsUnder, filterMap_of htool, filterMap_of htool, h.members]

lemma Alike.eventsUnder_eq (h : ls.Alike ls') (agent : String) :
    ls.eventsUnder agent = ls'.eventsUnder agent := by
  have hevent : ∀ c : Content, c.kind ≠ .event → c.event? = none := by
    intro c hc
    cases c with
    | event _ => exact absurd rfl hc
    | _ => rfl
  rw [eventsUnder, eventsUnder, filterMap_of hevent, filterMap_of hevent, h.members]

/-- A node is given to an agent if it is found among the members of one. -/
lemma holds_iff {kind : NodeKind} {id : String} : ls.holds kind id = true ↔
    ∃ agent, ∃ l ∈ (ls.within agent kind).eraseDups, l.member = id := by
  rw [holds, List.any_eq_true]
  constructor
  · rintro ⟨l, hl, hkeys⟩
    rw [Bool.and_eq_true, beq_iff_eq, beq_iff_eq] at hkeys
    refine ⟨l.agent, l, List.mem_eraseDups.2 (List.mem_filter.2 ⟨hl, ?_⟩), hkeys.2⟩
    rw [beq_self_eq_true, Bool.true_and, beq_iff_eq]
    exact hkeys.1
  · rintro ⟨agent, l, hl, rfl⟩
    obtain ⟨hmem, hkeys⟩ := List.mem_filter.1 (List.mem_eraseDups.1 hl)
    rw [Bool.and_eq_true] at hkeys
    exact ⟨l, hmem, by rw [hkeys.2, beq_self_eq_true, Bool.true_and]⟩

lemma Alike.holds_eq (h : ls.Alike ls') (kind : NodeKind) (id : String) :
    ls.holds kind id = ls'.holds kind id := by
  rw [Bool.eq_iff_iff, holds_iff, holds_iff]
  simp only [h.members]

lemma Alike.isAgentState_eq (h : ls.Alike ls') (id : String) :
    ls.isAgentState id = ls'.isAgentState id := by
  rw [Bool.eq_iff_iff, isAgentState_iff_exists, isAgentState_iff_exists]
  simp only [h.state]

end Links

/-! ## What the script is made of -/

namespace Graph

open Canonical

/-- Two graphs whose nodes say the same and whose links come to the same. -/
structure Alike (g h : Graph) : Prop where
  nodes : g.nodes.map Node.said = h.nodes.map Node.said
  links : g.links.Alike h.links

variable {g h : Graph}

lemma Alike.agentBlock_eq (hgh : g.Alike h) (id : String) :
    agentBlock g.links id = agentBlock h.links id := by
  funext a
  rw [agentBlock, agentBlock, memberLines, memberLines, fieldsOf, fieldsOf, hgh.links.state,
    hgh.links.toolsUnder_eq, hgh.links.eventsUnder_eq]

/-- A script is made of what its nodes say and what its links come to. -/
theorem Alike.blocks_eq (hgh : g.Alike h) : blocks g = blocks h := by
  have hagents : agentBlocks g.links g.nodes = agentBlocks h.links h.nodes := by
    have hsaid : ∀ g : Graph, agentBlocks g.links g.nodes = (g.nodes.map Node.said).filterMap
        fun n => n.2.agent?.map (agentBlock g.links n.1) := by
      intro g
      rw [List.filterMap_map]
      rfl
    rw [hsaid, hsaid, hgh.nodes]
    simp only [hgh.agentBlock_eq]
  have htools : looseTools g.links g.nodes = looseTools h.links h.nodes := by
    have hsaid : ∀ g : Graph, looseTools g.links g.nodes =
        ((g.nodes.map Node.said).filter fun n => !g.links.holds .tool n.1).filterMap (·.2.tool?) := by
      intro g
      rw [List.filter_map, List.filterMap_map]
      rfl
    rw [hsaid, hsaid, hgh.nodes]
    simp only [hgh.links.holds_eq]
  have htypes : typeBlocks g.links g.nodes = typeBlocks h.links h.nodes := by
    have hsaid : ∀ g : Graph, typeBlocks g.links g.nodes =
        ((g.nodes.map Node.said).filter fun n => !g.links.isAgentState n.1).filterMap
          fun n => n.2.state?.bind typeBlock? := by
      intro g
      rw [List.filter_map, List.filterMap_map]
      rfl
    rw [hsaid, hsaid, hgh.nodes]
    simp only [hgh.links.isAgentState_eq]
  rw [blocks, blocks, hagents, htools, htypes]

/-! ## Runs of retouches -/

/-- What edges mean between nodes that say the same. -/
lemma links_of_said {nodes : List Node} (hnodes : nodes.map Node.said = g.nodes.map Node.said)
    (edges : List Edge) : links { nodes, edges } = edges.filterMap g.link? :=
  List.filterMap_congr fun e _ => link?_of_said (h := { nodes, edges }) hnodes e

/-- Other edges between the same nodes, whose meanings come to the same. -/
lemma alike_of_edges {edges : List Edge} (h : Links.Alike (edges.filterMap g.link?) g.links) :
    Alike { g with edges } g :=
  ⟨rfl, by rwa [links_of_said rfl]⟩

/-- Other edges between the same nodes that mean the same, link by link. -/
lemma alike_of_links_eq {edges : List Edge} (h : edges.filterMap g.link? = g.links) :
    Alike { g with edges } g := by
  apply alike_of_edges
  rw [h]
  exact Links.alike_refl g.links

lemma filterMap_link?_of_ends {edges edges' : List Edge}
    (h : edges.map Edge.ends = edges'.map Edge.ends) :
    edges.filterMap g.link? = edges'.filterMap g.link? := by
  have hends : ∀ edges : List Edge, edges.filterMap g.link? =
      (edges.map Edge.ends).filterMap fun ends => g.link? ⟨"", ends.1, ends.2, none, none⟩ := by
    intro edges
    rw [List.filterMap_map]
    rfl
  rw [hends, hends, h]

/-- **One retouch** leaves the graph alike. -/
theorem Retouch.alike (hgh : Retouch g h) : h.Alike g := by
  cases hgh with
  | move hnodes =>
    refine ⟨hnodes, ?_⟩
    rw [links_of_said hnodes]
    exact Links.alike_refl g.links
  | relabel hedges => exact alike_of_links_eq (filterMap_link?_of_ends hedges)
  | @reverse xs ys e hedges =>
    apply alike_of_links_eq
    rw [links, hedges, List.filterMap_append, List.filterMap_append, List.filterMap_cons,
      List.filterMap_cons, link?_reverse]
  | @drop xs ys e hedges he =>
    apply alike_of_links_eq
    rw [links, hedges, List.filterMap_append, List.filterMap_append,
      List.filterMap_cons_none (link?_eq_none_of_meansNothing he)]
  | @insert xs ys e hedges he =>
    apply alike_of_links_eq
    rw [links, hedges, List.filterMap_append, List.filterMap_append,
      List.filterMap_cons_none (link?_eq_none_of_meansNothing he)]
  | @dropRepeat xs ys e e' agent member hedges hjoins hkind he' hends =>
    have hlink : g.link? e = some ⟨agent.id, member.id, member.content⟩ :=
      link?_eq_some_iff.2 ⟨agent, member, hjoins, rfl⟩
    have hlinks : g.links = xs.filterMap g.link? ++
        ⟨agent.id, member.id, member.content⟩ :: ys.filterMap g.link? := by
      rw [links, hedges, List.filterMap_append, List.filterMap_cons_some hlink]
    have hbefore : ⟨agent.id, member.id, member.content⟩ ∈ xs.filterMap g.link? :=
      List.mem_filterMap.2 ⟨e', he', (link?_of_sameEnds hends).trans hlink⟩
    have hstate : member.content.kind ≠ .state := by
      rw [← Node.kind]
      rcases hkind with hkind | hkind <;> rw [hkind] <;> decide
    apply alike_of_edges
    rw [hlinks, List.filterMap_append]
    apply Links.Alike.symm
    apply Links.alike_dropRepeat _ hbefore
    exact hstate
  | @swap xs ys e e' hedges hapart =>
    apply alike_of_edges
    rw [links, hedges, List.filterMap_append, List.filterMap_append, List.filterMap_cons,
      List.filterMap_cons, List.filterMap_cons, List.filterMap_cons]
    cases he : g.link? e with
    | none => exact Links.alike_refl _
    | some l =>
      cases he' : g.link? e' with
      | none => exact Links.alike_refl _
      | some l' =>
        obtain ⟨agent, member, hjoins, rfl⟩ := link?_eq_some_iff.1 he
        obtain ⟨agent', member', hjoins', rfl⟩ := link?_eq_some_iff.1 he'
        have hkinds : agent.id = agent'.id → member.kind ≠ member'.kind := by
          intro hsame
          have hfound := hjoins.node?_agent
          rw [hsame, hjoins'.node?_agent] at hfound
          obtain rfl := Option.some.inj hfound
          exact hapart agent' member member' hjoins hjoins'
        exact (Links.alike_swap hkinds).symm

/-- **A graph may be retouched at will**: its script stays the same. -/
theorem script_of_retouched (hgh : Relation.ReflTransGen Retouch g h) : h.script = g.script := by
  induction hgh with
  | refl => rfl
  | tail _ hstep ih =>
    rw [← ih, script, script, hstep.alike.blocks_eq]

/-- A workflow with a tool that two agents share, an edge drawn twice, and an edge that leads
nowhere.  A state has the id of the tool. -/
def drawnWorkflow : Graph where
  nodes := [
    ⟨"a", ⟨0, 0⟩, .agent ⟨"Main", none, none, none, none⟩⟩,
    ⟨"b", ⟨0, 0⟩, .agent ⟨"Helper", none, none, none, none⟩⟩,
    ⟨"t", ⟨0, 0⟩, .tool ⟨"search", none, none, none⟩⟩,
    ⟨"t", ⟨0, 0⟩, .state ⟨"Options", some ["theme: string"]⟩⟩,
    ⟨"s", ⟨0, 0⟩, .state ⟨"State", some ["count: number"]⟩⟩]
  edges := [.joining "a" "t", .joining "t" "b", .joining "t" "a", .joining "a" "s",
    .joining "ghost" "a"]

/-- The workflow with its nodes moved and with the given edges. -/
def movedWorkflow (edges : List Edge) : Graph where
  nodes := [
    ⟨"a", ⟨300, 100⟩, .agent ⟨"Main", none, none, none, none⟩⟩,
    ⟨"b", ⟨300, 500⟩, .agent ⟨"Helper", none, none, none, none⟩⟩,
    ⟨"t", ⟨50, 250⟩, .tool ⟨"search", none, none, none⟩⟩,
    ⟨"t", ⟨50, 0⟩, .state ⟨"Options", some ["theme: string"]⟩⟩,
    ⟨"s", ⟨550, 250⟩, .state ⟨"State", some ["count: number"]⟩⟩]
  edges

/-- The workflow after an editor was at work. -/
def redrawnWorkflow : Graph :=
  movedWorkflow [.joining "t" "b", .joining "a" "t", (Edge.joining "a" "s").reverse]

lemma retouched_redrawnWorkflow : Relation.ReflTransGen Retouch drawnWorkflow redrawnWorkflow := by
  have hmove : Retouch drawnWorkflow (movedWorkflow drawnWorkflow.edges) := .move rfl
  have hrepeat : Retouch (movedWorkflow drawnWorkflow.edges) (movedWorkflow
      [.joining "a" "t", .joining "t" "b", .joining "a" "s", .joining "ghost" "a"]) :=
    @Retouch.dropRepeat (movedWorkflow drawnWorkflow.edges)
      [.joining "a" "t", .joining "t" "b"] _ _ (.joining "a" "t") _ _ rfl
      ⟨rfl, by decide, .inr ⟨rfl, rfl⟩⟩ (.inl rfl) List.mem_cons_self (.inr rfl)
  have hdrop : Retouch (movedWorkflow
      [.joining "a" "t", .joining "t" "b", .joining "a" "s", .joining "ghost" "a"])
      (movedWorkflow [.joining "a" "t", .joining "t" "b", .joining "a" "s"]) :=
    @Retouch.drop (movedWorkflow _) [.joining "a" "t", .joining "t" "b", .joining "a" "s"] [] _ rfl
      (.inl rfl)
  have hswap : Retouch (movedWorkflow [.joining "a" "t", .joining "t" "b", .joining "a" "s"])
      (movedWorkflow [.joining "t" "b", .joining "a" "t", .joining "a" "s"]) := by
    refine @Retouch.swap (movedWorkflow _) [] _ _ _ rfl fun agent member member' hjoins hjoins' => ?_
    have hfirst : "a" = agent.id := congrArg Link.agent
      (Option.some.inj (link?_eq_some_iff.2 ⟨agent, member, hjoins, rfl⟩))
    have hsecond : "b" = agent.id := congrArg Link.agent
      (Option.some.inj (link?_eq_some_iff.2 ⟨agent, member', hjoins', rfl⟩))
    exact absurd (hfirst.trans hsecond.symm) (by decide)
  have hreverse : Retouch (movedWorkflow [.joining "t" "b", .joining "a" "t", .joining "a" "s"])
      redrawnWorkflow :=
    @Retouch.reverse (movedWorkflow _) [.joining "t" "b", .joining "a" "t"] [] _ rfl
  exact ((((Relation.ReflTransGen.single hmove).tail hrepeat).tail hdrop).tail hswap).tail hreverse

theorem script_of_retouched_redrawnWorkflow :
    Relation.ReflTransGen Retouch drawnWorkflow redrawnWorkflow ∧
      redrawnWorkflow.script = drawnWorkflow.script ∧
      blocks drawnWorkflow = [
        ["agent Main \x7b", "", "  state \x7b", "    count: number", "  \x7d",
          "", "  tool search() \x7b", "    // Implement tool logic here", "  \x7d", "\x7d"],
        ["agent Helper \x7b", "", "  tool search() \x7b", "    // Implement tool logic here",
          "  \x7d", "\x7d"],
        ["type Options \x7b", "  theme: string", "\x7d"]] :=
  ⟨retouched_redrawnWorkflow, script_of_retouched retouched_redrawnWorkflow, by decide +kernel⟩

end Graph

end AgentScript
