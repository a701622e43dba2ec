import AgentScript.Proofs.Graph.Regular

/-!
# Graphs that are made of stars

A layout draws every agent with its members around it: a *star*, whose edges all lead between the
agent and one of the members.  Beside the stars stand states without edges.  Where no two nodes have
the same id, the edges of such a graph mean just this: each star gives its agent the sheet made of
its members (`Stars.sheets_eq`), and the states beside the stars count for no agent
(`Stars.looseStates_eq`).
-/

namespace AgentScript

/-! ## Lists -/

section Lists

variable {α β κ : Type} [BEq κ] [LawfulBEq κ]

lemma eraseDups_of_nodup [BEq α] [LawfulBEq α] {xs : List α} (h : xs.Nodup) : xs.eraseDups = xs := by
  induction xs with
  | nil => rfl
  | cons x xs ih =>
    obtain ⟨hx, hxs⟩ := List.nodup_cons.1 h
    have hfilter : (xs.filter fun y => !y == x) = xs := by
      apply List.filter_eq_self.2
      intro y hy
      rw [Bool.not_eq_true', beq_eq_false_iff_ne]
      rintro rfl
      exact hx hy
    rw [List.eraseDups_cons, hfilter, ih hxs]

lemma eq_singleton_of_mem {xs : List α} (hlength : xs.length ≤ 1) {x : α} (hx : x ∈ xs) :
    xs = [x] := by
  cases xs with
  | nil => cases hx
  | cons y xs =>
    have hnil : xs = [] := List.eq_nil_of_length_eq_zero (by simpa using hlength)
    subst hnil
    rw [List.mem_singleton.1 hx]

/-- What belongs to one of several keys is told by the key. -/
lemma filter_flatMap_key {f : α → List β} {key : α → κ} {tag : β → κ} {xs : List α}
    (hkeys : (xs.map key).Nodup) (htags : ∀ x ∈ xs, ∀ y ∈ f x, tag y = key x) {x : α}
    (hx : x ∈ xs) : (xs.flatMap f).filter (fun y => tag y == key x) = f x := by
  have hother : ∀ x' : α, key x' ≠ key x → (∀ y ∈ f x', tag y = key x') →
      (f x').filter (fun y => tag y == key x) = [] := by
    intro x' hne htag
    apply List.filter_eq_nil_iff.2
    intro y hy
    rw [htag y hy, beq_iff_eq]
    exact hne
  have hnone : ∀ ys : List α, key x ∉ ys.map key → (∀ x' ∈ ys, ∀ y ∈ f x', tag y = key x') →
      (ys.flatMap f).filter (fun y => tag y == key x) = [] := by
    intro ys hnot htag
    rw [List.filter_flatMap, List.flatMap_eq_nil_iff]
    intro x' hx'
    exact hother x' (fun heq => hnot (heq ▸ List.mem_map_of_mem hx')) (htag x' hx')
  induction xs with
  | nil => cases hx
  | cons x' xs ih =>
    rw [List.map_cons, List.nodup_cons] at hkeys
    have htags' := fun z hz => htags z (List.mem_cons_of_mem x' hz)
    rw [List.flatMap_cons, List.filter_append]
    rcases List.mem_cons.1 hx with rfl | hx
    · have hself : (f x).filter (fun y => tag y == key x) = f x := by
        apply List.filter_eq_self.2
        intro y hy
        rw [htags x List.mem_cons_self y hy, beq_self_eq_true]
      rw [hself, hnone xs hkeys.1 htags', List.append_nil]
    · have hne : key x' ≠ key x := by
        intro heq
        exact hkeys.1 (heq ▸ List.mem_map_of_mem hx)
      rw [hother x' hne (htags x' List.mem_cons_self), List.nil_append, ih hkeys.2 htags' hx]

/-- Where keys tell apart, a key selects one element. -/
lemma filter_key_eq_singleton {key : α → κ} {xs : List α} (hkeys : (xs.map key).Nodup) {x : α}
    (hx : x ∈ xs) : xs.filter (fun y => key y == key x) = [x] := by
  have htags : ∀ y ∈ xs, ∀ z ∈ [y], key z = key y :=
    fun y _ z hz => congrArg key (List.mem_singleton.1 hz)
  have hself := filter_flatMap_key hkeys htags hx
  rwa [List.flatMap_singleton'] at hself

lemma filter_filterMap_key {f : α → Option β} {key : α → κ} {p : β → Bool} {xs : List α}
    (hkeys : (xs.map key).Nodup) {x : α} (hx : x ∈ xs)
    (hp : ∀ x' ∈ xs, ∀ y ∈ f x', p y = (key x' == key x)) :
    (xs.filterMap f).filter p = (f x).toList := by
  have hsame : ∀ x' ∈ xs, (f x').filter p = if key x' == key x then f x' else none := by
    intro x' hx'
    cases hf : f x' with
    | none => rw [Option.filter_none, ite_self]
    | some y => rw [Option.filter_some, hp x' hx' y hf]
  calc (xs.filterMap f).filter p
      = xs.filterMap fun x' => (f x').filter p := List.filter_filterMap
    _ = xs.filterMap fun x' => if key x' == key x then f x' else none := List.filterMap_congr hsame
    _ = (xs.filter fun x' => key x' == key x).filterMap f := List.filterMap_filter.symm
    _ = (f x).toList := by
      rw [filter_key_eq_singleton hkeys hx]
      cases hf : f x <;> simp [hf]

end Lists

lemma Graph.node?_eq_some {g : Graph} (h : (g.nodes.map (·.id)).Nodup) {n : Node}
    (hn : n ∈ g.nodes) : g.node? n.id = some n := by
  rw [Graph.node?, ← List.head?_filter, filter_key_eq_singleton h hn]
  rfl

/-! ## Stars -/

/-- An agent with its members around it, each with the edge between the two. -/
structure Star where
  hub : Node
  agent : AgentContent
  members : List (Node × Edge)

namespace Star

def nodes (s : Star) : List Node := s.hub :: s.members.map (·.1)

def edges (s : Star) : List Edge := s.members.map (·.2)

def contents (s : Star) : List Content := s.members.map (·.1.content)

def links (s : Star) : Links := s.members.map fun m => ⟨s.hub.id, m.1.id, m.1.content⟩

/-- The edge leads between an agent and a member, in either direction. -/
def Joins (e : Edge) (agent member : String) : Prop :=
  e.source = agent ∧ e.target = member ∨ e.source = member ∧ e.target = agent

structure WellFormed (s : Star) : Prop where
  hub : s.hub.content = .agent s.agent
  members : ∀ m ∈ s.members, m.1.kind ≠ .agent ∧ Joins m.2 s.hub.id m.1.id
  /-- There is one state at most. -/
  state : (s.contents.filter (·.kind == .state)).length ≤ 1

/-- The sheet of an agent that is given these contents. -/
def sheetOf (agent : AgentContent) (contents : List Content) : Sheet where
  agent
  fields := ((contents.filter (·.kind == .state)).getLast?.bind (·.state?)).bind (·.fields)
  tools := contents.filterMap (·.tool?)
  events := contents.filterMap (·.event?)

def sheet (s : Star) : Sheet := sheetOf s.agent s.contents

end Star

/-- A graph of stars, with states beside them. -/
structure Stars (g : Graph) (stars : List Star) (loose : List Node) : Prop where
  nodes : g.nodes = stars.flatMap Star.nodes ++ loose
  edges : g.edges = stars.flatMap Star.edges
  wellFormed : ∀ s ∈ stars, s.WellFormed
  loose : ∀ n ∈ loose, ∃ c, n.content = .state c
  nodup : (g.nodes.map (·.id)).Nodup

namespace Stars

variable {g : Graph} {stars : List Star} {loose : List Node} (h : Stars g stars loose)
include h

lemma node?_eq {n : Node} (hn : n ∈ g.nodes) : g.node? n.id = some n :=
  Graph.node?_eq_some h.nodup hn

lemma mem_nodes {s : Star} (hs : s ∈ stars) {n : Node} (hn : n ∈ s.nodes) : n ∈ g.nodes := by
  rw [h.nodes]
  exact List.mem_append_left _ (List.mem_flatMap.2 ⟨s, hs, hn⟩)

/-- An edge of a star means that its member belongs to the agent. -/
lemma link?_eq {s : Star} (hs : s ∈ stars) {m : Node × Edge} (hm : m ∈ s.members) :
    g.link? m.2 = some ⟨s.hub.id, m.1.id, m.1.content⟩ := by
  have hwell := h.wellFormed s hs
  obtain ⟨hkind, hjoins⟩ := hwell.members m hm
  have hhub := h.node?_eq (h.mem_nodes hs List.mem_cons_self)
  have hmember := h.node?_eq
    (h.mem_nodes hs (List.mem_cons_of_mem _ (List.mem_map_of_mem hm)))
  have hagent : s.hub.kind = .agent := by
    rw [Node.kind, hwell.hub]
    rfl
  rcases hjoins with ⟨hsource, htarget⟩ | ⟨hsource, htarget⟩
  · simp only [Graph.link?, hsource, htarget, hhub, hmember, if_pos hagent, if_neg hkind]
  · simp only [Graph.link?, hsource, htarget, hhub, hmember, if_pos hagent, if_neg hkind]

lemma links_eq : g.links = stars.flatMap Star.links := by
  rw [Graph.links, h.edges, List.filterMap_flatMap]
  apply List.flatMap_congr
  intro s hs
  rw [Star.edges, List.filterMap_map, Star.links, List.filterMap_eq_map_iff_forall_eq_some]
  exact fun m hm => h.link?_eq hs hm

/-- The ids of the nodes of the stars, star by star. -/
lemma nodup_ids : (stars.flatMap fun s => s.nodes.map (·.id)).Nodup ∧
    (stars.map (·.hub.id)).Nodup := by
  have hnodup := h.nodup
  rw [h.nodes, List.map_append, List.map_flatMap] at hnodup
  have hids := (List.nodup_append.1 hnodup).1
  refine ⟨hids, List.Sublist.nodup ?_ hids⟩
  clear hids hnodup h
  induction stars with
  | nil => exact .slnil
  | cons s ss ih =>
    rw [List.map_cons, List.flatMap_cons, Star.nodes, List.map_cons, List.cons_append]
    exact (ih.trans (List.sublist_append_right _ _)).cons_cons _

lemma filter_links_eq {s : Star} (hs : s ∈ stars) :
    (g.links.filter fun l => l.agent == s.hub.id) = s.links := by
  rw [h.links_eq]
  refine filter_flatMap_key h.nodup_ids.2 (fun s' _ l hl => ?_) hs
  obtain ⟨m, -, rfl⟩ := List.mem_map.1 hl
  rfl

lemma links_of_eq {s : Star} (hs : s ∈ stars) : g.links.of s.hub.id = s.links := by
  have hids := (List.nodup_flatMap.1 h.nodup_ids.1).1 s hs
  rw [Star.nodes, List.map_cons, List.nodup_cons, List.map_map] at hids
  have hlinks : s.links.Nodup := by
    apply List.Nodup.of_map (·.member)
    rw [Star.links, List.map_map]
    exact hids.2
  rw [Links.of, h.filter_links_eq hs, eraseDups_of_nodup hlinks]

lemma stateUnder?_eq {s : Star} (hs : s ∈ stars) :
    g.links.stateUnder? s.hub.id = (s.links.filter (·.kind == .state)).getLast? := by
  have hfilter : (g.links.filter fun l => l.agent == s.hub.id && l.kind == .state) =
      (g.links.filter fun l => l.agent == s.hub.id).filter (·.kind == .state) := by
    rw [List.filter_filter]
    refine congrArg (g.links.filter ·) (funext fun l => Bool.and_comm _ _)
  rw [Links.stateUnder?, hfilter, h.filter_links_eq hs]

/-- Each star gives its agent the sheet made of its members. -/
lemma under_eq {s : Star} (hs : s ∈ stars) : Sheet.under g.links s.hub.id s.agent = s.sheet := by
  have hstates : (s.links.filter (·.kind == .state)).map (·.content) =
      s.contents.filter (·.kind == .state) := by
    rw [Star.links, Star.contents, List.filter_map, List.filter_map, List.map_map]
    rfl
  have hcontents : s.links.map (·.content) = s.contents := by
    rw [Star.links, Star.contents, List.map_map]
    rfl
  have htools : g.links.toolsUnder s.hub.id = s.contents.filterMap (·.tool?) := by
    rw [Links.toolsUnder, h.links_of_eq hs, ← hcontents, List.filterMap_map]
    rfl
  have hevents : g.links.eventsUnder s.hub.id = s.contents.filterMap (·.event?) := by
    rw [Links.eventsUnder, h.links_of_eq hs, ← hcontents, List.filterMap_map]
    rfl
  have hfields : (g.links.stateUnder? s.hub.id).bind (·.content.state?) =
      (s.contents.filter (·.kind == .state)).getLast?.bind (·.state?) := by
    rw [h.stateUnder?_eq hs, ← hstates, List.getLast?_map, Option.bind_map]
    rfl
  rw [Sheet.under, Star.sheet, Star.sheetOf, hfields, htools, hevents]

/-- Of the nodes of a star, the hub alone is an agent. -/
lemma filterMap_nodes_eq {s : Star} (hs : s ∈ stars) :
    s.nodes.filterMap (fun n => n.content.agent?.map (Sheet.under g.links n.id)) = [s.sheet] := by
  have hhub : s.hub.content.agent? = some s.agent := by
    rw [(h.wellFormed s hs).hub]
    rfl
  have hmembers : (s.members.map (·.1)).filterMap
      (fun n => n.content.agent?.map (Sheet.under g.links n.id)) = [] := by
    rw [List.filterMap_eq_nil_iff]
    intro n hn
    obtain ⟨m, hm, rfl⟩ := List.mem_map.1 hn
    have hkind := ((h.wellFormed s hs).members m hm).1
    cases hcontent : m.1.content with
    | agent a =>
      rw [Node.kind, hcontent] at hkind
      exact absurd rfl hkind
    | tool _ => rfl
    | event _ => rfl
    | state _ => rfl
  rw [Star.nodes, List.filterMap_cons, hhub, Option.map_some, hmembers, h.under_eq hs]

lemma agentSheets_eq : g.agentSheets = stars.map Star.sheet := by
  have hloose : loose.filterMap
      (fun n => n.content.agent?.map (Sheet.under g.links n.id)) = [] := by
    rw [List.filterMap_eq_nil_iff]
    intro n hn
    obtain ⟨c, hc⟩ := h.loose n hn
    rw [hc]
    rfl
  rw [Graph.agentSheets, h.nodes, List.filterMap_append, hloose, List.append_nil,
    List.filterMap_flatMap, List.flatMap_congr fun s hs => h.filterMap_nodes_eq hs,
    ← List.map_eq_flatMap]

/-- The sheets of a graph of stars. -/
theorem sheets_eq : g.sheets = stars.map Star.sheet := by
  rw [Graph.sheets, h.agentSheets_eq]
  split
  next hempty =>
    -- Without stars there are states only, so there is no tool to hold.
    rw [List.isEmpty_iff, List.map_eq_nil_iff] at hempty
    have htools : Canonical.looseTools g.links g.nodes = [] := by
      rw [Canonical.looseTools, List.filterMap_eq_nil_iff]
      intro n hn
      have hnodes := h.nodes
      rw [hempty, List.flatMap_nil, List.nil_append] at hnodes
      obtain ⟨c, hc⟩ := h.loose n (hnodes ▸ List.mem_of_mem_filter hn)
      rw [hc]
      rfl
    rw [htools, hempty]
    rfl
  next => rfl

/-- The state of a star counts for its agent. -/
lemma isAgentState_of_mem {s : Star} (hs : s ∈ stars) {m : Node × Edge} (hm : m ∈ s.members)
    (hkind : m.1.kind = .state) : g.links.isAgentState m.1.id = true := by
  have hlink : (⟨s.hub.id, m.1.id, m.1.content⟩ : Link) ∈ s.links :=
    List.mem_map.2 ⟨m, hm, rfl⟩
  have hagent : s.hub.id ∈ g.links.agents := by
    rw [Links.agents, List.mem_eraseDups, h.links_eq]
    exact List.mem_map.2 ⟨_, List.mem_flatMap.2 ⟨s, hs, hlink⟩, rfl⟩
  have hstate : (⟨s.hub.id, m.1.id, m.1.content⟩ : Link) ∈
      s.links.filter (·.kind == .state) :=
    List.mem_filter.2 ⟨hlink, by rw [beq_iff_eq]; exact hkind⟩
  have hlength : (s.links.filter (·.kind == .state)).length ≤ 1 := by
    have hstates := (h.wellFormed s hs).state
    have hmap : s.contents = s.links.map (·.content) := by
      rw [Star.links, Star.contents, List.map_map]
      rfl
    rw [hmap, List.filter_map, List.length_map] at hstates
    exact hstates
  have honly := eq_singleton_of_mem hlength hstate
  rw [Links.isAgentState, List.any_eq_true]
  refine ⟨_, hagent, ?_⟩
  rw [h.stateUnder?_eq hs, honly]
  exact beq_self_eq_true _

/-- A state beside the stars counts for no agent. -/
lemma isAgentState_of_mem_loose {n : Node} (hn : n ∈ loose) :
    g.links.isAgentState n.id = false := by
  rw [Links.isAgentState, List.any_eq_false]
  intro agent _ hcounts
  rw [Option.any_eq_true] at hcounts
  obtain ⟨l, hl, hmember⟩ := hcounts
  have hlinks := List.mem_of_mem_filter (List.mem_of_getLast? hl)
  rw [h.links_eq] at hlinks
  obtain ⟨s, hs, hlink⟩ := List.mem_flatMap.1 hlinks
  obtain ⟨m, hm, rfl⟩ := List.mem_map.1 hlink
  -- The member would have the id of a state beside the stars.
  have hnodup := h.nodup
  rw [h.nodes, List.map_append] at hnodup
  have hleft : m.1.id ∈ (stars.flatMap Star.nodes).map (·.id) :=
    List.mem_map_of_mem
      (List.mem_flatMap.2 ⟨s, hs, List.mem_cons_of_mem _ (List.mem_map_of_mem hm)⟩)
  exact (List.nodup_append.1 hnodup).2.2 _ hleft _ (List.mem_map_of_mem hn) (beq_iff_eq.1 hmember)

/-- Of a graph of stars, the states beside the stars are those that count for no agent. -/
theorem looseStates_eq : g.looseStates = loose.filterMap (·.content.state?) := by
  have hstars : ((stars.flatMap Star.nodes).filter fun n => !g.links.isAgentState n.id).filterMap
      (·.content.state?) = [] := by
    rw [List.filterMap_eq_nil_iff]
    intro n hn
    rw [List.mem_filter, List.mem_flatMap] at hn
    obtain ⟨⟨s, hs, hnode⟩, hcounts⟩ := hn
    rcases List.mem_cons.1 hnode with rfl | hnode
    · rw [(h.wellFormed s hs).hub]
      rfl
    · obtain ⟨m, hm, rfl⟩ := List.mem_map.1 hnode
      by_contra hstate
      obtain ⟨c, hc⟩ := Option.ne_none_iff_exists'.1 hstate
      have hkind : m.1.kind = .state := by
        rw [Node.kind, state?_eq_some hc]
        rfl
      rw [h.isAgentState_of_mem hs hm hkind] at hcounts
      cases hcounts
  have hloose : (loose.filter fun n => !g.links.isAgentState n.id) = loose := by
    apply List.filter_eq_self.2
    intro n hn
    rw [h.isAgentState_of_mem_loose hn]
    rfl
  rw [Graph.looseStates, h.nodes, List.filter_append, List.filterMap_append, hstars, hloose,
    List.nil_append]

end Stars

end AgentScript
