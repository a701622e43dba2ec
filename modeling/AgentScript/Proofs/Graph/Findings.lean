import AgentScript.Proofs.Graph.Entries

/-!
# What is reported about members is what the script does with them

The script of a graph is written by going from an agent to its members.  The findings about tools and
event handlers come from the opposite direction: from a member to the agents that own it, or to the
question whether there is one.  If no id is used twice, the two agree (`Graph.membersReported`): what
is reported as dropped is what has no entry in the script, and what is reported as shared is what has
several, under the agents that the warning names.

Warnings are recognised by their messages, so that it is a reader of the messages who is told the
truth.  That no other finding can be taken for one of them is shown by how the messages end
(`Lint.Cause.suffix_message_iff`).
-/

namespace AgentScript

/-! ## Warnings by their messages -/

/-- A warning whose message starts and ends in the given way. -/
def Diagnostic.reads (front back : String) (d : Diagnostic) : Bool :=
  d.severity == .warning && front.toList.isPrefixOf d.message.toList &&
    back.toList.isSuffixOf d.message.toList

namespace Diagnostic

/-- The warning that a tool is left out. -/
def saysToolDropped : Diagnostic → Bool :=
  reads "tool '" "' is not linked to any agent and is dropped"

/-- The warning that an event handler is left out. -/
def saysEventDropped : Diagnostic → Bool :=
  reads "event '" "' is not linked to any agent and is dropped"

/-- The warning that several agents share a tool. -/
def saysToolShared : Diagnostic → Bool := reads "tool '" ") and is emitted under each"

end Diagnostic

namespace Lint

/-- The sections of a report. -/
inductive Section where
  | ids | edges | sharing | loneTools | loneEvents | values
  deriving DecidableEq

namespace Cause

/-- The section of the report in which a cause stands. -/
def reportedIn : Cause → Section
  | .repeatedId _ => .ids
  | .missingNode _ _ => .edges
  | .sharedTool _ _ => .sharing
  | .looseTool _ => .loneTools
  | .looseEvent _ => .loneEvents
  | _ => .values

/-- How the message of a cause ends, whatever the names in it. -/
def ending : Cause → String
  | .repeatedId _ => "' is used by more than one node"
  | .missingNode _ _ => "'"
  | .sharedTool _ _ => ") and is emitted under each"
  | .looseTool _ => "' is not linked to any agent and is dropped"
  | .looseEvent _ => "' is not linked to any agent and is dropped"
  | .badLabel _ _ => "' is not an identifier and does not parse back"
  | .badParams _ => "' parameters contain ')' and do not parse back"
  | .badReturns _ _ => "' does not parse back"
  | .badValue _ _ _ => " contains a quote or line break and does not parse back"

/-- The endings by which findings about members are recognised. -/
def memberEndings : List String :=
  [") and is emitted under each", "' is not linked to any agent and is dropped"]

/-- All endings of messages. -/
def endings : List String := memberEndings ++
  ["' is used by more than one node", "'", "' is not an identifier and does not parse back",
    "' parameters contain ')' and do not parse back", "' does not parse back",
    " contains a quote or line break and does not parse back"]

lemma ending_mem (c : Cause) : c.ending ∈ endings := by
  cases c <;> simp [ending, endings, memberEndings]

lemma ending_suffix (c : Cause) : c.ending.toList <:+ c.message.toList := by
  have happend : ∀ a b : String, b.toList <:+ (a ++ b).toList := by
    intro a b
    rw [String.toList_append]
    exact List.suffix_append _ _
  cases c <;> exact happend _ _

/-- A message ends like one about members only if it is one. -/
lemma suffix_message_iff {back : String} (hback : back ∈ memberEndings) (c : Cause) :
    back.toList <:+ c.message.toList ↔ c.ending = back := by
  refine ⟨fun hsuffix => ?_, fun hending => hending ▸ c.ending_suffix⟩
  have hdistinct : ∀ back ∈ memberEndings, ∀ ending ∈ endings, ending ≠ back →
      ¬back.toList <:+ ending.toList ∧ ¬ending.toList <:+ back.toList := by
    decide
  by_contra hne
  obtain ⟨hnot, hnot'⟩ := hdistinct back hback c.ending c.ending_mem hne
  rcases List.suffix_or_suffix_of_suffix hsuffix c.ending_suffix with hsuffix | hsuffix
  · exact hnot hsuffix
  · exact hnot' hsuffix

/-- How the message of a cause about members begins. -/
def beginning : Cause → String
  | .sharedTool _ _ => "tool '"
  | .looseTool _ => "tool '"
  | .looseEvent _ => "event '"
  | _ => ""

lemma beginning_prefix (c : Cause) : c.beginning.toList <+: c.message.toList := by
  have happend : ∀ a b : String, a.toList <+: (a ++ b).toList := by
    intro a b
    rw [String.toList_append]
    exact List.prefix_append _ _
  cases c with
  | sharedTool _ _ => simp only [message, String.append_assoc]; exact happend _ _
  | looseTool _ => simp only [message, String.append_assoc]; exact happend _ _
  | looseEvent _ => simp only [message, String.append_assoc]; exact happend _ _
  | _ => exact List.nil_prefix

/-- A message about members begins in one way only. -/
lemma prefix_message_iff {front : String} (hfront : front ∈ ["tool '", "event '"]) {c : Cause}
    (hc : c.ending ∈ memberEndings) : front.toList <+: c.message.toList ↔ c.beginning = front := by
  refine ⟨fun hprefix => ?_, fun hbeginning => hbeginning ▸ c.beginning_prefix⟩
  have hdistinct : ∀ front ∈ ["tool '", "event '"], ∀ beginning ∈ ["tool '", "event '"],
      beginning ≠ front →
        ¬front.toList <+: beginning.toList ∧ ¬beginning.toList <+: front.toList := by
    decide
  have hmem : c.beginning ∈ ["tool '", "event '"] := by
    cases c with
    | sharedTool _ _ => exact List.mem_cons_self
    | looseTool _ => exact List.mem_cons_self
    | looseEvent _ => exact List.mem_cons_of_mem _ List.mem_cons_self
    | _ => simp [ending, memberEndings] at hc
  by_contra hne
  obtain ⟨hnot, hnot'⟩ := hdistinct front hfront c.beginning hmem hne
  rcases List.prefix_or_prefix_of_prefix hprefix c.beginning_prefix with hprefix | hprefix
  · exact hnot hprefix
  · exact hnot' hprefix

/-- The test of messages is one of causes. -/
lemma reads_toDiagnostic {front back : String} (hfront : front ∈ ["tool '", "event '"])
    (hback : back ∈ memberEndings) (c : Cause) :
    c.toDiagnostic.reads front back = decide (c.ending = back ∧ c.beginning = front) := by
  rw [Bool.eq_iff_iff, decide_eq_true_eq, Diagnostic.reads, Bool.and_eq_true, Bool.and_eq_true,
    List.isSuffixOf_iff_suffix, List.isPrefixOf_iff_prefix, beq_iff_eq, and_comm, toDiagnostic,
    suffix_message_iff hback]
  refine and_congr_right fun hending => ?_
  have hc : c.ending ∈ memberEndings := hending ▸ hback
  have hwarning : c.severity = .warning := by
    cases c with
    | repeatedId _ => simp [ending, memberEndings] at hc
    | _ => rfl
  rw [prefix_message_iff hfront hc, and_iff_right hwarning]

lemma saysToolDropped_toDiagnostic (c : Cause) :
    c.toDiagnostic.saysToolDropped = decide (c.reportedIn = .loneTools) := by
  rw [Diagnostic.saysToolDropped, reads_toDiagnostic (by decide) (by decide), decide_eq_decide]
  cases c <;> simp [ending, beginning, reportedIn]

lemma saysEventDropped_toDiagnostic (c : Cause) :
    c.toDiagnostic.saysEventDropped = decide (c.reportedIn = .loneEvents) := by
  rw [Diagnostic.saysEventDropped, reads_toDiagnostic (by decide) (by decide), decide_eq_decide]
  cases c <;> simp [ending, beginning, reportedIn]

lemma saysToolShared_toDiagnostic (c : Cause) :
    c.toDiagnostic.saysToolShared = decide (c.reportedIn = .sharing) := by
  rw [Diagnostic.saysToolShared, reads_toDiagnostic (by decide) (by decide), decide_eq_decide]
  cases c <;> simp [ending, beginning, reportedIn]

end Cause

/-! ## The sections of a report -/

section Sections

variable {c c' : Cause} {g : Graph}

lemma reportedIn_of_mem_ite {p : Prop} [Decidable p] (hc : c ∈ if p then [c'] else []) :
    c.reportedIn = c'.reportedIn := by
  obtain ⟨-, hc⟩ := (List.mem_ite_nil_right ..).1 hc
  rw [List.mem_singleton.1 hc]

lemma reportedIn_repeatedIds {seen : List String} {nodes : List Node}
    (hc : c ∈ repeatedIds seen nodes) : c.reportedIn = .ids := by
  induction nodes generalizing seen with
  | nil => cases hc
  | cons n nodes ih =>
    rcases List.mem_append.1 hc with hc | hc
    · exact reportedIn_of_mem_ite hc
    · exact ih hc

lemma reportedIn_badSignature {t : ToolContent} (hc : c ∈ badSignature t) :
    c.reportedIn = .values := by
  rcases List.mem_append.1 hc with hc | hc
  · exact reportedIn_of_mem_ite hc
  · exact reportedIn_of_mem_ite hc

lemma reportedIn_unreadable {ls : Links} {n : Node} (hc : c ∈ unreadable ls n) :
    c.reportedIn = .values := by
  rcases List.mem_append.1 hc with hc | hc
  · exact reportedIn_of_mem_ite hc
  · cases hcontent : n.content with
    | agent a =>
      simp only [hcontent, List.mem_append, or_assoc] at hc
      rcases hc with hc | hc | hc | hc <;> exact reportedIn_of_mem_ite hc
    | tool t =>
      simp only [hcontent, List.mem_append] at hc
      exact hc.elim reportedIn_badSignature reportedIn_of_mem_ite
    | event _ => simp only [hcontent, List.not_mem_nil] at hc
    | state _ => simp only [hcontent, List.not_mem_nil] at hc

/-- What is reported in a section. -/
def Section.causes (g : Graph) : Section → List Cause
  | .ids => repeatedIds [] g.nodes
  | .edges => missingNodes g
  | .sharing => sharedTools g g.links
  | .loneTools => looseTools g g.links
  | .loneEvents => looseEvents g g.links
  | .values => g.nodes.flatMap (unreadable g.links)

lemma reportedIn_of_mem {s : Section} (hc : c ∈ s.causes g) : c.reportedIn = s := by
  cases s with
  | ids => exact reportedIn_repeatedIds hc
  | edges =>
    obtain ⟨e, -, hc⟩ := List.mem_flatMap.1 hc
    obtain ⟨id, -, rfl⟩ := List.mem_map.1 hc
    rfl
  | sharing =>
    obtain ⟨t, -, hc⟩ := List.mem_filterMap.1 hc
    obtain ⟨-, hc⟩ := Option.ite_none_right_eq_some.1 hc
    rw [← Option.some.inj hc]
    rfl
  | loneTools =>
    obtain ⟨-, hc⟩ := (List.mem_ite_nil_left ..).1 hc
    obtain ⟨t, -, rfl⟩ := List.mem_map.1 hc
    rfl
  | loneEvents =>
    obtain ⟨e, -, rfl⟩ := List.mem_map.1 hc
    rfl
  | values =>
    obtain ⟨n, -, hc⟩ := List.mem_flatMap.1 hc
    exact reportedIn_unreadable hc

/-- A section of the report is what is reported in it. -/
lemma filter_causes (g : Graph) (s : Section) :
    (causes g).filter (fun c => decide (c.reportedIn = s)) = s.causes g := by
  have hcauses : causes g = [Section.ids, .edges, .sharing, .loneTools, .loneEvents,
      .values].flatMap (Section.causes g) := by
    simp [causes, Section.causes]
  have hfilter : ∀ s' : Section, (s'.causes g).filter (fun c => decide (c.reportedIn = s)) =
      if s' = s then s.causes g else [] := by
    intro s'
    split
    next h =>
      subst h
      exact List.filter_eq_self.2 fun c hc => decide_eq_true (reportedIn_of_mem hc)
    next h =>
      refine List.filter_eq_nil_iff.2 fun c hc => ?_
      rw [decide_eq_true_eq, reportedIn_of_mem hc]
      exact h
  rw [hcauses, List.filter_flatMap]
  simp only [hfilter]
  cases s <;> simp

/-- The warnings that a test of messages tells are those of a section. -/
lemma filter_lint {test : Diagnostic → Bool} {s : Section}
    (h : ∀ c : Cause, test c.toDiagnostic = decide (c.reportedIn = s)) (g : Graph) :
    g.lint.filter test = (s.causes g).map Cause.toDiagnostic := by
  rw [Graph.lint, List.filter_map, ← filter_causes]
  congr 1
  exact List.filter_congr fun c _ => h c

end Sections

end Lint

/-! ## Owners and writers -/

section Owners

variable {g : Graph} {n : Node} {agent : String}

lemma nodup_agentIds (hids : (g.nodes.map (·.id)).Nodup) : g.agentIds.Nodup :=
  (List.filter_sublist.map _).nodup hids

/-- A tool or an event handler is written under the agents it is linked to. -/
lemma mem_writersOf (hids : (g.nodes.map (·.id)).Nodup) (hn : n ∈ g.nodes)
    (hkind : n.kind = .tool ∨ n.kind = .event) :
    agent ∈ g.writersOf n ↔ ∃ l ∈ g.links, l.kind = n.kind ∧ l.member = n.id ∧ l.agent = agent := by
  have hwrites : g.writesUnder n agent =
      g.links.any fun l => l.agent == agent && l.member == n.id := by
    unfold Graph.writesUnder
    rcases hkind with hkind | hkind <;> rw [hkind]
  rw [Graph.writersOf, List.mem_filter, hwrites, List.any_eq_true]
  simp only [Bool.and_eq_true, beq_iff_eq]
  constructor
  · rintro ⟨-, l, hl, hagent, hmember⟩
    exact ⟨l, hl, congrArg Content.kind (content_of_mem_links hids hn hl hmember), hmember, hagent⟩
  · rintro ⟨l, hl, -, hmember, rfl⟩
    exact ⟨agent_of_mem_links hl, l, hl, rfl, hmember⟩

/-- What is given to an agent is written under one. -/
lemma holds_iff_writersOf (hids : (g.nodes.map (·.id)).Nodup) (hn : n ∈ g.nodes)
    (hkind : n.kind = .tool ∨ n.kind = .event) :
    g.links.holds n.kind n.id = true ↔ g.writersOf n ≠ [] := by
  rw [Links.holds, List.any_eq_true, Ne, List.eq_nil_iff_forall_not_mem, not_forall]
  simp only [not_not, mem_writersOf hids hn hkind, Bool.and_eq_true, beq_iff_eq]
  constructor
  · rintro ⟨l, hl, hkeys⟩
    exact ⟨l.agent, l, hl, hkeys.1, hkeys.2, rfl⟩
  · rintro ⟨agent, l, hl, hkind, hmember, -⟩
    exact ⟨l, hl, hkind, hmember⟩

lemma pairwise_mergeSort_le (xs : List String) : xs.mergeSort.Pairwise (· ≤ ·) := by
  have htrans : ∀ a b c : String, decide (a ≤ b) = true → decide (b ≤ c) = true →
      decide (a ≤ c) = true := by
    intro a b c hab hbc
    rw [decide_eq_true_eq] at hab hbc ⊢
    exact String.le_trans hab hbc
  have htotal : ∀ a b : String, (decide (a ≤ b) || decide (b ≤ a)) = true := by
    intro a b
    rw [Bool.or_eq_true, decide_eq_true_eq, decide_eq_true_eq]
    exact String.le_total a b
  exact (List.pairwise_mergeSort htrans htotal xs).imp of_decide_eq_true

/-- A sorted list is what all that it is a permutation of are sorted into. -/
lemma mergeSort_eq {xs ys : List String} (h : xs.Perm ys) (hys : ys.Pairwise (· ≤ ·)) :
    xs.mergeSort = ys :=
  ((List.mergeSort_perm xs (· ≤ ·)).trans h).eq_of_pairwise
    (fun _ _ _ _ => String.le_antisymm) (pairwise_mergeSort_le xs) hys

/-- The owners of a tool, which are found by going through the links, are its writers in order. -/
lemma ownersOf_eq (hids : (g.nodes.map (·.id)).Nodup) (hn : n ∈ g.nodes) (hkind : n.kind = .tool) :
    g.links.ownersOf n.id = (g.writersOf n).mergeSort := by
  have hperm : (((g.links.filter fun l => l.kind == .tool && l.member == n.id).map
      (·.agent)).eraseDups).Perm (g.writersOf n) := by
    refine (List.perm_ext_iff_of_nodup (nodup_eraseDups _) ((nodup_agentIds hids).filter _)).2 ?_
    intro agent
    change _ ↔ agent ∈ g.writersOf n
    rw [List.mem_eraseDups, List.mem_map, mem_writersOf hids hn (.inl hkind), hkind]
    simp only [List.mem_filter, Bool.and_eq_true, beq_iff_eq, and_assoc]
  exact mergeSort_eq (hperm.trans (List.mergeSort_perm _ _).symm) (pairwise_mergeSort_le _)

/-- The entries of a node tell under which agents it is written. -/
lemma filterMap_entriesOf (hids : (g.nodes.map (·.id)).Nodup) (hn : n ∈ g.nodes) :
    (g.entriesOf n).filterMap (·.agent?) = g.writersOf n := by
  have hnone : (if g.writesApart n then [n.entry] else []).filterMap (·.agent?) = [] := by
    split <;> rfl
  rw [Graph.entriesOf_eq hids hn, List.filterMap_append, hnone, List.append_nil,
    List.filterMap_map]
  exact List.filterMap_some

/-- A tool is written once under each of its writers, and once if there are no agents. -/
lemma length_entriesOf_tool (hids : (g.nodes.map (·.id)).Nodup) (hn : n ∈ g.nodes)
    (hkind : n.kind = .tool) :
    (g.entriesOf n).length = (g.writersOf n).length + if g.agentIds.isEmpty then 1 else 0 := by
  rw [Graph.entriesOf_eq hids hn, List.length_append, List.length_map, Graph.writesApart, hkind]
  change _ + (if g.agentIds.isEmpty then [n.entry] else []).length = _
  split <;> rfl

/-- Without agents there are no writers. -/
lemma writersOf_eq_nil (h : g.agentIds.isEmpty) : g.writersOf n = [] := by
  rw [Graph.writersOf, List.isEmpty_iff.1 h, List.filter_nil]

lemma length_entriesOf_event (hids : (g.nodes.map (·.id)).Nodup) (hn : n ∈ g.nodes)
    (hkind : n.kind = .event) : (g.entriesOf n).length = (g.writersOf n).length := by
  rw [Graph.entriesOf_eq hids hn, List.length_append, List.length_map, Graph.writesApart, hkind]
  rfl

end Owners

/-! ## What is reported -/

namespace Graph

/-- The ids of the agents that a node is written under, in order. -/
def writtenUnder (g : Graph) (n : Node) : List String :=
  ((g.entriesOf n).filterMap (·.agent?)).mergeSort

/-- The findings about tools and event handlers tell how often these are written. -/
structure MembersReported (g : Graph) : Prop where
  /-- The script is made of the paragraphs whose entries are counted. -/
  blocks : Canonical.blocks g = g.paragraphs.map Paragraph.lines
  /-- The entries of a node are written with what it says. -/
  content : ∀ n ∈ g.nodes, ∀ e ∈ g.entriesOf n, e.content = n.content
  /-- The tools that are not written are reported as dropped, one by one, and no others. -/
  toolsDropped : g.lint.filter Diagnostic.saysToolDropped =
    ((g.nodesOf .tool).filter fun t => (g.entriesOf t).length = 0).map fun t =>
      ⟨.warning, "tool '" ++ t.label ++ "' is not linked to any agent and is dropped", 0⟩
  /-- The tools that are written more than once are reported as shared, one by one, and no others;
  the report tells how often and where. -/
  toolsShared : g.lint.filter Diagnostic.saysToolShared =
    ((g.nodesOf .tool).filter fun t => 2 ≤ (g.entriesOf t).length).map fun t =>
      ⟨.warning, "tool '" ++ t.label ++ "' is linked to " ++ toString (g.entriesOf t).length ++
        " agents (" ++ ", ".intercalate (g.writtenUnder t) ++ ") and is emitted under each", 0⟩
  /-- A shared tool is written only under agents, under each of them once; they are in order. -/
  writers : ∀ t ∈ g.nodesOf .tool, 2 ≤ (g.entriesOf t).length →
    (g.writtenUnder t).length = (g.entriesOf t).length ∧ (g.writtenUnder t).Pairwise (· < ·)
  /-- Without agents a tool is written once. -/
  unowned : g.nodesOf .agent = [] → ∀ t ∈ g.nodesOf .tool, (g.entriesOf t).length = 1
  /-- The event handlers that are not written are reported as dropped, one by one, and no others. -/
  eventsDropped : g.lint.filter Diagnostic.saysEventDropped =
    ((g.nodesOf .event).filter fun e => (g.entriesOf e).length = 0).map fun e =>
      ⟨.warning, "event '" ++ e.label ++ "' is not linked to any agent and is dropped", 0⟩

variable {g : Graph}

lemma mem_nodesOf {kind : NodeKind} {n : Node} : n ∈ g.nodesOf kind ↔ n ∈ g.nodes ∧ n.kind = kind := by
  rw [nodesOf, List.mem_filter, beq_iff_eq]

lemma agentIds_isEmpty (g : Graph) : g.agentIds.isEmpty = (g.nodesOf .agent).isEmpty :=
  List.isEmpty_map

lemma writtenUnder_eq {n : Node} (hids : (g.nodes.map (·.id)).Nodup) (hn : n ∈ g.nodes) :
    g.writtenUnder n = (g.writersOf n).mergeSort := by
  rw [writtenUnder, filterMap_entriesOf hids hn]

/-- A tool with more than one entry is owned by agents only. -/
lemma two_le_length_entriesOf {t : Node} (hids : (g.nodes.map (·.id)).Nodup) (ht : t ∈ g.nodes)
    (hkind : t.kind = .tool) (hshared : 2 ≤ (g.entriesOf t).length) :
    (g.entriesOf t).length = (g.writersOf t).length := by
  have hlength := length_entriesOf_tool hids ht hkind
  split at hlength
  next hempty =>
    rw [writersOf_eq_nil hempty, List.length_nil] at hlength
    omega
  next => exact hlength

lemma causes_loneTools (hids : (g.nodes.map (·.id)).Nodup) :
    Lint.looseTools g g.links = ((g.nodesOf .tool).filter fun t => (g.entriesOf t).length = 0).map
      fun t => .looseTool t.label := by
  unfold Lint.looseTools
  split
  next hempty =>
    have hnone : ((g.nodesOf .tool).filter fun t => (g.entriesOf t).length = 0) = [] := by
      refine List.filter_eq_nil_iff.2 fun t ht => ?_
      obtain ⟨ht, hkind⟩ := mem_nodesOf.1 ht
      rw [length_entriesOf_tool hids ht hkind, agentIds_isEmpty, if_pos hempty]
      simp
    rw [hnone, List.map_nil]
  next hagents =>
    congr 1
    refine List.filter_congr fun t ht => ?_
    obtain ⟨ht, hkind⟩ := mem_nodesOf.1 ht
    rw [length_entriesOf_tool hids ht hkind, agentIds_isEmpty, if_neg hagents, Nat.add_zero,
      Bool.eq_iff_iff, Bool.not_eq_true', ← Bool.not_eq_true, ← hkind,
      holds_iff_writersOf hids ht (.inl hkind), not_not, decide_eq_true_eq, List.length_eq_zero_iff]

lemma causes_loneEvents (hids : (g.nodes.map (·.id)).Nodup) :
    Lint.looseEvents g g.links = ((g.nodesOf .event).filter fun e => (g.entriesOf e).length = 0).map
      fun e => .looseEvent e.label := by
  unfold Lint.looseEvents
  congr 1
  refine List.filter_congr fun e he => ?_
  obtain ⟨he, hkind⟩ := mem_nodesOf.1 he
  rw [length_entriesOf_event hids he hkind, Bool.eq_iff_iff, Bool.not_eq_true', ← Bool.not_eq_true,
    ← hkind, holds_iff_writersOf hids he (.inr hkind), not_not, decide_eq_true_eq,
    List.length_eq_zero_iff]

lemma causes_sharing (hids : (g.nodes.map (·.id)).Nodup) :
    Lint.sharedTools g g.links = ((g.nodesOf .tool).filter fun t => 2 ≤ (g.entriesOf t).length).map
      fun t => .sharedTool t.label (g.writtenUnder t) := by
  rw [← List.filterMap_eq_map, List.filterMap_filter, Lint.sharedTools]
  refine List.filterMap_congr fun t ht => ?_
  obtain ⟨ht, hkind⟩ := mem_nodesOf.1 ht
  have hiff : 1 < (g.links.ownersOf t.id).length ↔ 2 ≤ (g.entriesOf t).length := by
    rw [ownersOf_eq hids ht hkind, List.length_mergeSort]
    refine ⟨fun h => ?_, fun h => ?_⟩
    · rw [length_entriesOf_tool hids ht hkind]
      omega
    · rwa [two_le_length_entriesOf hids ht hkind h] at h
  have howners : g.writtenUnder t = g.links.ownersOf t.id := by
    rw [writtenUnder_eq hids ht, ownersOf_eq hids ht hkind]
  simp only [hiff, Function.comp_apply, howners, decide_eq_true_eq]

/-- **What is reported about members is what the script does with them.** -/
theorem membersReported (g : Graph) (hids : (g.nodes.map (·.id)).Nodup) : g.MembersReported := by
  constructor
  case blocks => exact g.blocks_eq_paragraphs
  case content =>
    intro n hn e he
    rw [entriesOf_eq hids hn] at he
    rcases List.mem_append.1 he with he | he
    · obtain ⟨agent, -, rfl⟩ := List.mem_map.1 he
      rfl
    · obtain ⟨-, he⟩ := (List.mem_ite_nil_right ..).1 he
      rw [List.mem_singleton.1 he]
      rfl
  case toolsDropped =>
    rw [Lint.filter_lint Lint.Cause.saysToolDropped_toDiagnostic, Lint.Section.causes,
      causes_loneTools hids, List.map_map]
    rfl
  case toolsShared =>
    rw [Lint.filter_lint Lint.Cause.saysToolShared_toDiagnostic, Lint.Section.causes,
      causes_sharing hids, List.map_map]
    refine List.map_congr_left fun t ht => ?_
    obtain ⟨ht, hshared⟩ := List.mem_filter.1 ht
    obtain ⟨ht, hkind⟩ := mem_nodesOf.1 ht
    have hlength : (g.writtenUnder t).length = (g.entriesOf t).length := by
      rw [writtenUnder_eq hids ht, List.length_mergeSort,
        two_le_length_entriesOf hids ht hkind (of_decide_eq_true hshared)]
    rw [← hlength]
    rfl
  case writers =>
    intro t ht hshared
    obtain ⟨ht, hkind⟩ := mem_nodesOf.1 ht
    rw [writtenUnder_eq hids ht, List.length_mergeSort, two_le_length_entriesOf hids ht hkind hshared]
    refine ⟨rfl, ?_⟩
    have hnodup : (g.writersOf t).mergeSort.Nodup :=
      (List.mergeSort_perm _ _).nodup_iff.2 ((nodup_agentIds hids).filter _)
    refine ((pairwise_mergeSort_le _).and hnodup).imp fun {a b} h => ?_
    exact String.not_le.1 fun hle => h.2 (String.le_antisymm h.1 hle)
  case unowned =>
    intro hagents t ht
    obtain ⟨ht, hkind⟩ := mem_nodesOf.1 ht
    have hempty : g.agentIds.isEmpty := by rw [agentIds_isEmpty, hagents]; rfl
    rw [length_entriesOf_tool hids ht hkind, writersOf_eq_nil hempty, if_pos hempty]
    rfl
  case eventsDropped =>
    rw [Lint.filter_lint Lint.Cause.saysEventDropped_toDiagnostic, Lint.Section.causes,
      causes_loneEvents hids, List.map_map]
    rfl

/-- A workflow in which two agents share a tool, by edges drawn either way and more than once, and in
which a tool and an event handler are left out. -/
def tangledWorkflow : Graph where
  nodes := [
    ⟨"b", ⟨0, 0⟩, .agent ⟨"Main", none, none, none, none⟩⟩,
    ⟨"a", ⟨0, 0⟩, .agent ⟨"Helper", none, none, none, none⟩⟩,
    ⟨"t", ⟨0, 0⟩, .tool ⟨"search", none, none, none⟩⟩,
    ⟨"u", ⟨0, 0⟩, .tool ⟨"search", none, none, none⟩⟩,
    ⟨"v", ⟨0, 0⟩, .tool ⟨"fetch", none, none, none⟩⟩,
    ⟨"e", ⟨0, 0⟩, .event ⟨"start", none⟩⟩]
  edges := [.joining "b" "t", .joining "t" "a", .joining "t" "b", .joining "a" "v",
    .joining "t" "u", .joining "ghost" "e"]

/-- The tool that is shared. -/
def searchTool : Node := ⟨"t", ⟨0, 0⟩, .tool ⟨"search", none, none, none⟩⟩

lemma causes_tangledWorkflow : Lint.causes tangledWorkflow = [
    .missingNode "edge-ghost-e" "ghost", .sharedTool "search" ["a", "b"], .looseTool "search",
    .looseEvent "start"] := by
  have hshared : Lint.sharedTools tangledWorkflow tangledWorkflow.links =
      [.sharedTool "search" ["a", "b"]] := by
    have hids : (tangledWorkflow.nodes.map (·.id)).Nodup := by decide
    have hfilter : (tangledWorkflow.nodesOf .tool).filter
        (fun t => 2 ≤ (tangledWorkflow.entriesOf t).length) = [searchTool] := rfl
    have hwriters : tangledWorkflow.writersOf searchTool = ["b", "a"] := by decide +kernel
    have hmem : searchTool ∈ tangledWorkflow.nodes := by simp [tangledWorkflow, searchTool]
    rw [causes_sharing hids, hfilter, List.map_singleton, writtenUnder_eq hids hmem, hwriters,
      mergeSort_eq (.swap _ _ _) (by decide)]
    rfl
  simp only [Lint.causes, hshared]
  decide +kernel

theorem membersReported_tangledWorkflow :
    (tangledWorkflow.nodes.map (·.id)).Nodup ∧ tangledWorkflow.MembersReported ∧
      tangledWorkflow.nodes.map (fun n => (tangledWorkflow.entriesOf n).length) = [0, 0, 2, 0, 1, 0] ∧
      tangledWorkflow.lint.map (·.message) = [
        "edge 'edge-ghost-e' references missing node 'ghost'",
        "tool 'search' is linked to 2 agents (a, b) and is emitted under each",
        "tool 'search' is not linked to any agent and is dropped",
        "event 'start' is not linked to any agent and is dropped"] := by
  refine ⟨by decide, membersReported tangledWorkflow (by decide), by decide +kernel, ?_⟩
  rw [lint, causes_tangledWorkflow]
  decide +kernel

end Graph

end AgentScript
