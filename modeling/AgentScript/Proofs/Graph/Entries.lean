import AgentScript.Proofs.Graph.Legible
import Mathlib.Data.List.Nodup

/-!
# Where the members of a graph are written

The canonical script of a graph is made of *paragraphs*, one for each of its blocks, and what it
tells about the members of the graph stands in the *entries* of the paragraphs.  An entry says what
the lines do not: the id of the node that is written, and the id of the agent it is written under
(`Graph.blocks_eq_paragraphs`).

If no id is used twice, a member has one entry under each of the agents that it is written under, in
the order of the agents, and a member that is written under none has at most one entry beside them
(`Graph.entriesOf_eq`).  Where nothing is found in a graph, all event handlers are written, and so
are all states with fields; but of those that several agents share there is more than one entry
(`Graph.membersWritten`, `Graph.shared_members_not_found`).
-/

namespace AgentScript

open Canonical

/-- A member as a canonical script writes it. -/
structure Entry where
  /-- The id of the node that is written. -/
  node : String
  content : Content
  /-- The id of the agent it is written under.  There is none for a type, and none for a tool in a
  graph without agents. -/
  agent? : Option String := none
  deriving DecidableEq, Repr

/-- Whether the content is that of a state with at least one field. -/
def Content.hasFields : Content → Bool
  | .state s => !(s.fields.getD []).isEmpty
  | _ => false

/-- The lines of an entry.  A state without an agent is written as a type. -/
def Entry.lines (e : Entry) : List String :=
  match e.content with
  | .agent _ => []
  | .tool t => toolLines t
  | .event h => eventLines h
  | .state s =>
    if e.agent?.isSome then stateLines (s.fields.getD []) else (typeBlock? s).getD []

/-- The entry of a member under the agent it is given to. -/
def Link.entry (l : Link) : Entry := ⟨l.member, l.content, some l.agent⟩

/-- The entry of a member that is written under no agent. -/
def Node.entry (n : Node) : Entry := ⟨n.id, n.content, none⟩

/-- What is written under an agent: the state that counts for it, if it has fields, its tools and its
event handlers. -/
def Links.entriesUnder (ls : Links) (agent : String) : List Entry :=
  let state := (ls.stateUnder? agent).toList.map Link.entry
  let members := (ls.of agent).map Link.entry
  state.filter (·.content.hasFields) ++ members.filter (·.content.kind == .tool) ++
    members.filter (·.content.kind == .event)

/-- One block of a canonical script. -/
structure Paragraph where
  /-- The lines before the entries. -/
  front : List String := []
  entries : List Entry
  /-- The lines after the entries. -/
  back : List String := []

def Paragraph.lines (p : Paragraph) : List String :=
  p.front ++ p.entries.flatMap Entry.lines ++ p.back

/-- The paragraph of a sheet with the given entries. -/
def Sheet.paragraph (s : Sheet) (entries : List Entry) : Paragraph where
  front := opening ("agent " ++ s.agent.label) :: s.ownLines
  entries
  back := ["\x7d"]

namespace Graph

/-- The paragraphs of the agents, in the order of their nodes. -/
def agentParagraphs (g : Graph) : List Paragraph :=
  g.nodes.filterMap fun n => n.content.agent?.map fun a =>
    (Sheet.under g.links n.id a).paragraph (g.links.entriesUnder n.id)

/-- The entries of the tools that are given to no agent. -/
def looseToolEntries (g : Graph) : List Entry :=
  ((g.nodes.filter fun n => !g.links.holds .tool n.id).map Node.entry).filter
    (·.content.kind == .tool)

/-- The entries of the states that are written as types. -/
def typeEntries (g : Graph) : List Entry :=
  ((g.nodes.filter fun n => !g.links.isAgentState n.id).map Node.entry).filter (·.content.hasFields)

/-- The paragraphs of the canonical script of a graph. -/
def paragraphs (g : Graph) : List Paragraph :=
  (if g.agentParagraphs.isEmpty then
      match g.looseToolEntries with
      | [] => []
      | tools => [(Sheet.placeholder (Canonical.looseTools g.links g.nodes)).paragraph tools]
    else g.agentParagraphs) ++
    g.typeEntries.map fun e => { entries := [e] }

/-- All entries of the canonical script of a graph, in the order in which they are written. -/
def entries (g : Graph) : List Entry := g.paragraphs.flatMap (·.entries)

/-- The entries of one node. -/
def entriesOf (g : Graph) (n : Node) : List Entry := g.entries.filter (·.node == n.id)

end Graph

/-! ## The script is made of its paragraphs -/

section Paragraphs

variable {g : Graph} {ls : Links} {es : List Entry}

/-- Entries are written as it is told by what they hold. -/
lemma flatMap_lines_filter {p : Entry → Bool} {written : Entry → Option (List String)}
    (h : ∀ e ∈ es, (if p e then some e.lines else none) = written e) :
    (es.filter p).flatMap Entry.lines = (es.filterMap written).flatten := by
  rw [List.flatMap_def, ← List.filterMap_eq_map, List.filterMap_filter]
  exact congrArg List.flatten (List.filterMap_congr h)

lemma flatMap_lines_tools (es : List Entry) :
    (es.filter (·.content.kind == .tool)).flatMap Entry.lines =
      (es.filterMap (·.content.tool?)).flatMap toolLines := by
  rw [List.flatMap_def (f := toolLines), List.map_filterMap]
  apply flatMap_lines_filter
  rintro ⟨node, _ | _ | _ | _, agent?⟩ - <;> rfl

lemma flatMap_lines_events (es : List Entry) :
    (es.filter (·.content.kind == .event)).flatMap Entry.lines =
      (es.filterMap (·.content.event?)).flatMap eventLines := by
  rw [List.flatMap_def (f := eventLines), List.map_filterMap]
  apply flatMap_lines_filter
  rintro ⟨node, _ | _ | _ | _, agent?⟩ - <;> rfl

/-- A state without fields is written nowhere. -/
lemma flatMap_lines_state (l : Link) :
    ([l.entry].filter (·.content.hasFields)).flatMap Entry.lines =
      stateLines (((l.content.state?).bind (·.fields)).getD []) := by
  obtain ⟨agent, member, content⟩ := l
  cases content with
  | state s =>
    cases hfields : s.fields.getD [] with
    | nil => simp [Content.hasFields, Content.state?, Link.entry, hfields, stateLines]
    | cons f fields => simp [Content.hasFields, Content.state?, Link.entry, Entry.lines, hfields]
  | _ => rfl

/-- The entries under an agent are the members of its sheet. -/
lemma flatMap_lines_entriesUnder (ls : Links) (id : String) (a : AgentContent) :
    (ls.entriesUnder id).flatMap Entry.lines = (Sheet.under ls id a).memberLines := by
  have hstate : (((ls.stateUnder? id).toList.map Link.entry).filter (·.content.hasFields)).flatMap
      Entry.lines = stateLines ((Sheet.under ls id a).fields.getD []) := by
    dsimp only [Sheet.under]
    cases ls.stateUnder? id with
    | none => rfl
    | some l => exact flatMap_lines_state l
  rw [Links.entriesUnder, List.flatMap_append, List.flatMap_append, hstate, flatMap_lines_tools,
    flatMap_lines_events, List.filterMap_map, List.filterMap_map]
  rfl

lemma lines_paragraph {s : Sheet} (h : es.flatMap Entry.lines = s.memberLines) :
    (s.paragraph es).lines = s.lines := by
  rw [Paragraph.lines, Sheet.paragraph, h, Sheet.lines]
  simp only [List.cons_append, List.append_assoc]

lemma map_lines_agentParagraphs (g : Graph) :
    g.agentParagraphs.map Paragraph.lines = g.agentSheets.map Sheet.lines := by
  rw [Graph.agentParagraphs, Graph.agentSheets, List.map_filterMap, List.map_filterMap]
  congr 1
  funext n
  rw [Option.map_map, Option.map_map]
  congr 1
  funext a
  exact lines_paragraph (flatMap_lines_entriesUnder g.links n.id a)

lemma lines_placeholder (g : Graph) :
    ((Sheet.placeholder (looseTools g.links g.nodes)).paragraph g.looseToolEntries).lines =
      (Sheet.placeholder (looseTools g.links g.nodes)).lines := by
  apply lines_paragraph
  rw [Graph.looseToolEntries, flatMap_lines_tools, List.filterMap_map, Sheet.memberLines]
  simp only [Sheet.placeholder, Option.getD_none, stateLines, List.nil_append, List.flatMap_nil,
    List.append_nil]
  rfl

lemma looseToolEntries_eq_nil_iff (g : Graph) :
    g.looseToolEntries = [] ↔ looseTools g.links g.nodes = [] := by
  rw [Graph.looseToolEntries, looseTools, List.filter_eq_nil_iff, List.filterMap_eq_nil_iff,
    List.forall_mem_map]
  refine forall₂_congr fun n _ => ?_
  rw [Node.entry]
  cases n.content <;> simp [Content.kind, Content.tool?]

lemma map_lines_typeEntries (g : Graph) :
    (g.typeEntries.map fun e => ({ entries := [e] } : Paragraph)).map Paragraph.lines =
      g.looseStates.filterMap typeBlock? := by
  have hlines : Paragraph.lines ∘ (fun e => { entries := [e] }) = Entry.lines := by
    funext e
    simp [Paragraph.lines]
  rw [List.map_map, hlines, Graph.typeEntries, Graph.looseStates, ← List.filterMap_eq_map,
    List.filterMap_filter, List.filterMap_map, List.filterMap_filterMap]
  apply List.filterMap_congr
  rintro ⟨id, position, content⟩ -
  cases content with
  | state s =>
    cases hfields : s.fields.getD [] with
    | nil => simp [Node.entry, Content.hasFields, Content.state?, typeBlock?, hfields]
    | cons f fields =>
      simp [Node.entry, Entry.lines, Content.hasFields, Content.state?, typeBlock?, hfields]
  | _ => rfl

/-- **The canonical script is made of its paragraphs.** -/
theorem Graph.blocks_eq_paragraphs (g : Graph) : blocks g = g.paragraphs.map Paragraph.lines := by
  have hempty : g.agentSheets.isEmpty = g.agentParagraphs.isEmpty := by
    rw [← List.isEmpty_map (f := Sheet.lines), ← map_lines_agentParagraphs, List.isEmpty_map]
  rw [blocks_eq, Graph.paragraphs, List.map_append, map_lines_typeEntries, Graph.sheets, hempty]
  congr 1
  split
  · have hnil := looseToolEntries_eq_nil_iff g
    have hlines := lines_placeholder g
    split
    next htools => rw [hnil.2 htools]; rfl
    next htools =>
      split
      next hloose => exact absurd (hnil.1 hloose) htools
      next hloose => rw [List.map_singleton, List.map_singleton, hlines]
  · exact (map_lines_agentParagraphs g).symm

end Paragraphs

/-! ## The entries of a node -/

namespace Graph

/-- The ids of the agents. -/
def agentIds (g : Graph) : List String := (g.nodesOf .agent).map (·.id)

/-- Whether a node is written under an agent: a state with fields if it is the one that counts for
the agent, a tool or an event handler if it is given to the agent. -/
def writesUnder (g : Graph) (n : Node) (agent : String) : Bool :=
  match n.kind with
  | .agent => false
  | .state => n.content.hasFields && (g.links.stateUnder? agent).any (·.member == n.id)
  | _ => g.links.any fun l => l.agent == agent && l.member == n.id

/-- The ids of the agents a node is written under, in the order of the agents. -/
def writersOf (g : Graph) (n : Node) : List String := g.agentIds.filter (g.writesUnder n)

/-- Whether a node is written outside the agents of the graph. -/
def writesApart (g : Graph) (n : Node) : Bool :=
  match n.kind with
  | .tool => g.agentIds.isEmpty
  | .state => n.content.hasFields && !g.links.isAgentState n.id
  | _ => false

end Graph

section Counting

variable {α β : Type} {g : Graph} {n : Node} {l : Link} {agent : String}

/-! ### Lists -/

lemma nodup_eraseDups [BEq α] [LawfulBEq α] (xs : List α) : xs.eraseDups.Nodup := by
  match xs with
  | [] => exact List.nodup_nil
  | x :: xs =>
    rw [List.eraseDups_cons, List.nodup_cons, List.mem_eraseDups, List.mem_filter]
    exact ⟨fun hx => by simp at hx, nodup_eraseDups _⟩
termination_by xs.length
decreasing_by exact Nat.lt_succ_of_le (List.length_filter_le _ _)

/-- A list without repetitions that can hold only one element. -/
lemma eq_ite_of_nodup {xs : List α} {x : α} {p : Bool} (hnodup : xs.Nodup) (hall : ∀ y ∈ xs, y = x)
    (hp : p = true ↔ xs ≠ []) : xs = if p then [x] else [] := by
  match xs with
  | [] => rw [if_neg (by simp [hp])]
  | [y] => rw [if_pos (by simp [hp]), hall y List.mem_cons_self]
  | y :: z :: ys =>
    have hsame : y = z := (hall y (by simp)).trans (hall z (by simp)).symm
    rw [hsame, List.nodup_cons] at hnodup
    exact absurd List.mem_cons_self hnodup.1

lemma flatMap_ite (xs : List α) (p : α → Bool) (f : α → β) :
    (xs.flatMap fun x => if p x then [f x] else []) = (xs.filter p).map f := by
  induction xs with
  | nil => rfl
  | cons x xs ih =>
    rw [List.flatMap_cons, ih, List.filter_cons]
    split <;> rfl

/-! ### Nodes and links -/

lemma filter_id_eq (hids : (g.nodes.map (·.id)).Nodup) (hn : n ∈ g.nodes) :
    g.nodes.filter (·.id == n.id) = [n] := by
  have hmem : n ∈ g.nodes.filter (·.id == n.id) := List.mem_filter.2 ⟨hn, beq_self_eq_true _⟩
  have hall : ∀ m ∈ g.nodes.filter (·.id == n.id), m = n := by
    intro m hm
    obtain ⟨hm, hid⟩ := List.mem_filter.1 hm
    exact List.inj_on_of_nodup_map hids hm hn (beq_iff_eq.1 hid)
  exact eq_ite_of_nodup (p := true) ((List.Nodup.of_map _ hids).filter _) hall
    (iff_of_true rfl (List.ne_nil_of_mem hmem))

/-- A link leads from an agent. -/
lemma agent_of_mem_links (h : l ∈ g.links) : l.agent ∈ g.agentIds := by
  rw [Graph.links, List.mem_filterMap] at h
  obtain ⟨e, -, hlink⟩ := h
  have hagent : ∀ {id : String} {a : Node}, g.node? id = some a → a.kind = .agent →
      a.id ∈ g.agentIds := by
    intro id a ha hkind
    exact List.mem_map_of_mem
      (List.mem_filter.2 ⟨(exists_node_of_node? ha).1, beq_iff_eq.2 hkind⟩)
  unfold Graph.link? at hlink
  split at hlink
  next s t hs ht =>
    split at hlink
    next hsource =>
      obtain ⟨-, hlink⟩ := Option.ite_none_left_eq_some.1 hlink
      obtain rfl := Option.some.inj hlink
      exact hagent hs hsource
    next =>
      obtain ⟨htarget, hlink⟩ := Option.ite_none_right_eq_some.1 hlink
      obtain rfl := Option.some.inj hlink
      exact hagent ht htarget
  next => cases hlink

/-- A link tells what its member says. -/
lemma content_of_mem_links (hids : (g.nodes.map (·.id)).Nodup) (hn : n ∈ g.nodes) (h : l ∈ g.links)
    (hmember : l.member = n.id) : l.content = n.content := by
  obtain ⟨m, hm, hid, hcontent⟩ := exists_node_of_mem_links h
  obtain rfl := List.inj_on_of_nodup_map hids hm hn (hid.trans hmember)
  exact hcontent.symm

lemma mem_of_stateUnder? {ls : Links} (h : ls.stateUnder? agent = some l) :
    l ∈ ls ∧ l.agent = agent := by
  obtain ⟨hmem, hkeys⟩ := List.mem_filter.1 (List.mem_of_getLast? h)
  rw [Bool.and_eq_true, beq_iff_eq] at hkeys
  exact ⟨hmem, hkeys.1⟩

/-- A state counts for an agent if it is the last one of some agent. -/
lemma Links.isAgentState_iff_exists {ls : Links} {id : String} : ls.isAgentState id = true ↔
    ∃ agent, (ls.stateUnder? agent).any (·.member == id) = true := by
  rw [isAgentState, List.any_eq_true]
  constructor
  · rintro ⟨agent, -, hstate⟩
    exact ⟨agent, hstate⟩
  · rintro ⟨agent, hstate⟩
    obtain ⟨l, hl, -⟩ := (Option.any_eq_true _ _).1 hstate
    obtain ⟨hmem, rfl⟩ := mem_of_stateUnder? hl
    exact ⟨l.agent, List.mem_eraseDups.2 (List.mem_map_of_mem hmem), hstate⟩

/-- The agents that a state of a graph can count for are nodes. -/
lemma isAgentState_iff {id : String} : g.links.isAgentState id = true ↔
    ∃ agent ∈ g.agentIds, (g.links.stateUnder? agent).any (·.member == id) = true := by
  rw [Links.isAgentState_iff_exists]
  constructor
  · rintro ⟨agent, hstate⟩
    obtain ⟨l, hl, -⟩ := (Option.any_eq_true _ _).1 hstate
    obtain ⟨hmem, rfl⟩ := mem_of_stateUnder? hl
    exact ⟨l.agent, agent_of_mem_links hmem, hstate⟩
  · rintro ⟨agent, -, hstate⟩
    exact ⟨agent, hstate⟩

/-- The links of an agent to one member. -/
lemma filter_of_eq (hids : (g.nodes.map (·.id)).Nodup) (hn : n ∈ g.nodes) (agent : String) :
    (g.links.of agent).filter (·.member == n.id) =
      if g.links.any fun l => l.agent == agent && l.member == n.id then [⟨agent, n.id, n.content⟩]
      else [] := by
  have hmem : ∀ l : Link, l ∈ (g.links.of agent).filter (·.member == n.id) ↔
      l ∈ g.links ∧ l.agent = agent ∧ l.member = n.id := by
    intro l
    rw [Links.of, List.mem_filter, List.mem_eraseDups, List.mem_filter, beq_iff_eq, beq_iff_eq,
      and_assoc]
  refine eq_ite_of_nodup ((nodup_eraseDups _).filter _) (fun l hl => ?_) ?_
  · obtain ⟨hlink, rfl, hmember⟩ := (hmem l).1 hl
    rw [← content_of_mem_links hids hn hlink hmember, ← hmember]
  · rw [List.any_eq_true, Ne, List.eq_nil_iff_forall_not_mem, not_forall]
    simp only [not_not, hmem, Bool.and_eq_true, beq_iff_eq]

lemma hasFields_eq_false (h : n.kind ≠ .state) : n.content.hasFields = false := by
  obtain ⟨id, position, _ | _ | _ | _⟩ := n
  · rfl
  · rfl
  · rfl
  · exact absurd rfl h

/-! ### Under one agent -/

lemma filter_members (hids : (g.nodes.map (·.id)).Nodup) (hn : n ∈ g.nodes) (agent : String)
    (kind : NodeKind) :
    ((((g.links.of agent).map Link.entry).filter (·.content.kind == kind)).filter (·.node == n.id)) =
      if n.kind == kind && g.links.any fun l => l.agent == agent && l.member == n.id then
        [⟨n.id, n.content, some agent⟩]
      else [] := by
  have hlinks := congrArg (List.map Link.entry) (filter_of_eq hids hn agent)
  have hmap : ((g.links.of agent).map Link.entry).filter (·.node == n.id) =
      ((g.links.of agent).filter (·.member == n.id)).map Link.entry := List.filter_map
  rw [List.filter_comm, hmap, hlinks]
  cases g.links.any fun l => l.agent == agent && l.member == n.id with
  | false => rw [Bool.and_false]; rfl
  | true =>
    rw [Bool.and_true, if_pos rfl, List.map_singleton, List.filter_cons, List.filter_nil]
    rfl

lemma filter_state (hids : (g.nodes.map (·.id)).Nodup) (hn : n ∈ g.nodes) (agent : String) :
    (((g.links.stateUnder? agent).toList.map Link.entry).filter (·.content.hasFields)).filter
        (·.node == n.id) =
      if n.content.hasFields && (g.links.stateUnder? agent).any (·.member == n.id) then
        [⟨n.id, n.content, some agent⟩]
      else [] := by
  cases hstate : g.links.stateUnder? agent with
  | none => simp
  | some l =>
    obtain ⟨hmem, hagent⟩ := mem_of_stateUnder? hstate
    by_cases hmember : l.member = n.id
    · have hcontent := content_of_mem_links hids hn hmem hmember
      simp [Link.entry, hmember, hcontent, hagent, List.filter_cons]
    · simp [Link.entry, hmember]

/-- Under one agent a node is written once or not at all. -/
lemma filter_entriesUnder (hids : (g.nodes.map (·.id)).Nodup) (hn : n ∈ g.nodes) (agent : String) :
    (g.links.entriesUnder agent).filter (·.node == n.id) =
      if g.writesUnder n agent then [⟨n.id, n.content, some agent⟩] else [] := by
  rw [Links.entriesUnder, List.filter_append, List.filter_append, filter_state hids hn,
    filter_members hids hn, filter_members hids hn, Graph.writesUnder]
  cases hkind : n.kind with
  | state => simp
  | _ => simp [hasFields_eq_false (n := n) (by simp [hkind])]

/-! ### In the whole script -/

lemma agentIds_eq (g : Graph) :
    g.agentIds = g.nodes.filterMap fun n => n.content.agent?.map fun _ => n.id := by
  rw [Graph.agentIds, Graph.nodesOf, ← List.filterMap_eq_map, List.filterMap_filter]
  apply List.filterMap_congr
  rintro ⟨id, position, _ | _ | _ | _⟩ - <;> rfl

lemma isEmpty_agentParagraphs (g : Graph) : g.agentParagraphs.isEmpty = g.agentIds.isEmpty := by
  rw [Bool.eq_iff_iff, List.isEmpty_iff, List.isEmpty_iff, agentIds_eq, Graph.agentParagraphs,
    List.filterMap_eq_nil_iff, List.filterMap_eq_nil_iff]
  simp only [Option.map_eq_none_iff]

lemma flatMap_agentParagraphs (g : Graph) :
    g.agentParagraphs.flatMap (·.entries) = g.agentIds.flatMap g.links.entriesUnder := by
  rw [agentIds_eq, Graph.agentParagraphs, List.flatMap_def, List.flatMap_def, List.map_filterMap,
    List.map_filterMap]
  simp only [Option.map_map]
  rfl

/-- The entries are those under the agents, those of the tools if there is no agent, and the types. -/
lemma entries_eq (g : Graph) :
    g.entries = g.agentIds.flatMap g.links.entriesUnder ++
      (if g.agentIds.isEmpty then g.looseToolEntries else []) ++ g.typeEntries := by
  have htypes : (g.typeEntries.map fun e => ({ entries := [e] } : Paragraph)).flatMap (·.entries) =
      g.typeEntries := by
    rw [List.flatMap_map]
    exact List.flatMap_singleton' _
  rw [Graph.entries, Graph.paragraphs, List.flatMap_append, htypes, isEmpty_agentParagraphs]
  congr 1
  split
  next hempty =>
    rw [List.isEmpty_iff.1 hempty, List.flatMap_nil, List.nil_append]
    split
    next htools => rw [htools]; rfl
    next => rw [List.flatMap_singleton]; rfl
  next => rw [flatMap_agentParagraphs, List.append_nil]

/-- A node that is picked beside the agents has one entry. -/
lemma filter_loose (hids : (g.nodes.map (·.id)).Nodup) (hn : n ∈ g.nodes) (p : Node → Bool)
    (q : Content → Bool) :
    (((g.nodes.filter p).map Node.entry).filter (q ·.content)).filter (·.node == n.id) =
      if p n && q n.content then [n.entry] else [] := by
  have hmap : ((g.nodes.filter p).map Node.entry).filter (·.node == n.id) =
      ((g.nodes.filter p).filter (·.id == n.id)).map Node.entry := List.filter_map
  rw [List.filter_comm, hmap, List.filter_comm, filter_id_eq hids hn, List.filter_cons,
    List.filter_nil]
  cases p n with
  | false => rfl
  | true => rw [if_pos rfl, List.map_singleton, List.filter_cons]; rfl

/-- Where there is no agent, no edge means anything. -/
lemma links_eq_nil (h : g.agentIds = []) : g.links = [] := by
  rw [List.eq_nil_iff_forall_not_mem]
  intro l hl
  have hagent := agent_of_mem_links hl
  rw [h] at hagent
  cases hagent

/-- **A node is written once under each of its writers**, and at most once beside them. -/
theorem Graph.entriesOf_eq (hids : (g.nodes.map (·.id)).Nodup) (hn : n ∈ g.nodes) :
    g.entriesOf n = (g.writersOf n).map (fun agent => ⟨n.id, n.content, some agent⟩) ++
      if g.writesApart n then [n.entry] else [] := by
  have hagents : (g.agentIds.flatMap g.links.entriesUnder).filter (·.node == n.id) =
      (g.writersOf n).map fun agent => ⟨n.id, n.content, some agent⟩ := by
    rw [List.filter_flatMap, Graph.writersOf, ← flatMap_ite]
    exact List.flatMap_congr fun agent _ => filter_entriesUnder hids hn agent
  have htools : (if g.agentIds.isEmpty then g.looseToolEntries else []).filter (·.node == n.id) =
      if g.agentIds.isEmpty && n.kind == .tool then [n.entry] else [] := by
    cases hempty : g.agentIds.isEmpty with
    | false => rfl
    | true =>
      rw [if_pos rfl, Graph.looseToolEntries, filter_loose hids hn _ (·.kind == .tool),
        links_eq_nil (List.isEmpty_iff.1 hempty)]
      rfl
  have htypes : g.typeEntries.filter (·.node == n.id) =
      if !g.links.isAgentState n.id && n.content.hasFields then [n.entry] else [] :=
    filter_loose hids hn _ _
  rw [Graph.entriesOf, entries_eq, List.filter_append, List.filter_append, hagents, htools, htypes,
    List.append_assoc, Graph.writesApart]
  congr 1
  cases hkind : n.kind with
  | state => simp [Bool.and_comm]
  | _ => simp [hasFields_eq_false (n := n) (by simp [hkind])]

end Counting

/-! ## Graphs without findings -/

namespace Graph

variable {g : Graph} {n : Node}

/-- How often the event handlers and the states of a graph are written. -/
structure MembersWritten (g : Graph) : Prop where
  /-- The script is made of the paragraphs whose entries are counted. -/
  blocks : Canonical.blocks g = g.paragraphs.map Paragraph.lines
  /-- An event handler is written once under each agent it is given to, and there is one. -/
  event : ∀ n ∈ g.nodes, n.kind = .event → g.writersOf n ≠ [] ∧
    g.entriesOf n = (g.writersOf n).map fun agent => ⟨n.id, n.content, some agent⟩
  /-- A state with fields is written once under each agent it counts for, or else once as a type. -/
  state : ∀ n ∈ g.nodes, n.content.hasFields = true →
    g.entriesOf n = if (g.writersOf n).isEmpty then [n.entry]
      else (g.writersOf n).map fun agent => ⟨n.id, n.content, some agent⟩
  /-- What several agents share is repeated, and nothing else. -/
  once : ∀ n ∈ g.nodes, n.kind = .event ∨ n.content.hasFields = true →
    ((g.entriesOf n).length = 1 ↔ (g.writersOf n).length ≤ 1)

/-- An event handler without an agent would be found. -/
lemma writersOf_ne_nil (hlint : g.lint = []) (hn : n ∈ g.nodes) (hkind : n.kind = .event) :
    g.writersOf n ≠ [] := by
  have hholds : g.links.holds .event n.id = true := by
    have hcauses := causes_eq_nil hlint
    rw [Lint.causes, List.append_eq_nil_iff, List.append_eq_nil_iff] at hcauses
    have hloose := List.filter_eq_nil_iff.1 (List.map_eq_nil_iff.1 hcauses.1.2) n
      (List.mem_filter.2 ⟨hn, beq_iff_eq.2 hkind⟩)
    simpa using hloose
  obtain ⟨l, hl, hkeys⟩ := List.any_eq_true.1 hholds
  rw [Bool.and_eq_true, beq_iff_eq] at hkeys
  apply List.ne_nil_of_mem (a := l.agent)
  refine List.mem_filter.2 ⟨agent_of_mem_links hl, ?_⟩
  rw [writesUnder, hkind]
  exact List.any_eq_true.2 ⟨l, hl, by rw [beq_self_eq_true, hkeys.2, Bool.true_and]⟩

/-- A state with fields that counts for no agent is written as a type. -/
lemma writesApart_eq (hfields : n.content.hasFields = true) :
    g.writesApart n = (g.writersOf n).isEmpty := by
  have hkind : n.kind = .state := by
    by_contra hkind
    rw [hasFields_eq_false hkind] at hfields
    cases hfields
  have hwrites : g.writesUnder n = fun agent =>
      (g.links.stateUnder? agent).any (·.member == n.id) := by
    funext agent
    rw [writesUnder, hkind, hfields, Bool.true_and]
  rw [writesApart, hkind, hfields, Bool.true_and, writersOf, hwrites, Bool.eq_iff_iff,
    Bool.not_eq_true', ← Bool.not_eq_true, isAgentState_iff, List.isEmpty_iff,
    List.filter_eq_nil_iff]
  push Not
  rfl

/-- **Where nothing is found, everything is written**, once unless it is shared. -/
theorem membersWritten (g : Graph) (hids : (g.nodes.map (·.id)).Nodup) (hlint : g.lint = []) :
    g.MembersWritten := by
  have hevent : ∀ n ∈ g.nodes, n.kind = .event →
      g.entriesOf n = (g.writersOf n).map fun agent => ⟨n.id, n.content, some agent⟩ := by
    intro n hn hkind
    rw [entriesOf_eq hids hn, writesApart, hkind, if_neg Bool.false_ne_true, List.append_nil]
  have hstate : ∀ n ∈ g.nodes, n.content.hasFields = true →
      g.entriesOf n = if (g.writersOf n).isEmpty then [n.entry]
        else (g.writersOf n).map fun agent => ⟨n.id, n.content, some agent⟩ := by
    intro n hn hfields
    rw [entriesOf_eq hids hn, writesApart_eq hfields]
    cases g.writersOf n with
    | nil => rfl
    | cons agent agents => exact List.append_nil _
  refine ⟨g.blocks_eq_paragraphs, fun n hn hkind => ⟨writersOf_ne_nil hlint hn hkind,
    hevent n hn hkind⟩, hstate, ?_⟩
  rintro n hn (hkind | hfields)
  · have hpos := List.length_pos_iff.2 (writersOf_ne_nil hlint hn hkind)
    rw [hevent n hn hkind, List.length_map]
    omega
  · rw [hstate n hn hfields]
    cases g.writersOf n with
    | nil => simp
    | cons agent agents => simp

/-- A workflow in which two agents share an event handler and a state. -/
def sharingWorkflow : Graph where
  nodes := [
    ⟨"a", ⟨0, 0⟩, .agent ⟨"Main", none, none, none, none⟩⟩,
    ⟨"b", ⟨0, 0⟩, .agent ⟨"Helper", none, none, none, none⟩⟩,
    ⟨"e", ⟨0, 0⟩, .event ⟨"start", none⟩⟩,
    ⟨"s", ⟨0, 0⟩, .state ⟨"State", some ["count: number"]⟩⟩,
    ⟨"o", ⟨0, 0⟩, .state ⟨"Options", some ["theme: string"]⟩⟩]
  edges := [.joining "a" "e", .joining "e" "b", .joining "a" "s", .joining "b" "s"]

lemma facts_sharingWorkflow :
    (sharingWorkflow.nodes.map (·.id)).Nodup ∧ sharingWorkflow.lint = [] := by
  decide +kernel

theorem membersWritten_sharingWorkflow :
    (sharingWorkflow.nodes.map (·.id)).Nodup ∧ sharingWorkflow.lint = [] ∧
      sharingWorkflow.MembersWritten ∧
      sharingWorkflow.nodes.map sharingWorkflow.writersOf = [[], [], ["a", "b"], ["a", "b"], []] :=
  ⟨facts_sharingWorkflow.1, facts_sharingWorkflow.2,
    membersWritten sharingWorkflow facts_sharingWorkflow.1 facts_sharingWorkflow.2,
    by decide +kernel⟩

/-- What is shared is written under each of its agents, and nothing is found. -/
theorem shared_members_not_found :
    (sharingWorkflow.nodes.map (·.id)).Nodup ∧ sharingWorkflow.lint = [] ∧
      (∀ n ∈ sharingWorkflow.nodes, n.kind ≠ .agent →
        ((sharingWorkflow.entriesOf n).length = 1 ↔ n.id = "o")) ∧
      Canonical.blocks sharingWorkflow = [
        ["agent Main \x7b", "", "  state \x7b", "    count: number", "  \x7d",
          "", "  on start \x7b", "    // Handle event here", "  \x7d", "\x7d"],
        ["agent Helper \x7b", "", "  state \x7b", "    count: number", "  \x7d",
          "", "  on start \x7b", "    // Handle event here", "  \x7d", "\x7d"],
        ["type Options \x7b", "  theme: string", "\x7d"]] :=
  ⟨facts_sharingWorkflow.1, facts_sharingWorkflow.2, by decide +kernel, by decide +kernel⟩

end Graph

end AgentScript
