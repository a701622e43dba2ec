import AgentScript.Proofs.Graph.Placement
import AgentScript.Proofs.Script.Enclosure
import Mathlib.Data.List.Perm.Basic

/-!
# Nothing vanishes between a text and its graph

A graph has a node for everything that was read, apart from agents and state blocks that come again;
and where one of these is left out, a warning says so.  The layout takes out repeated agents and
state blocks by itself, whereas the warnings come from the bookkeeping of the reader, which is done
in three places.  That both leave out the same is the balance `Reading.Accounted`: what is declared
less what is different is what was noted.  Members that come again have a node each, and a warning as
well.

Warnings are recognised by their messages, so that the counts are those of a reader of the messages.
-/

namespace AgentScript

open Script

/-! ## Warnings by their messages -/

namespace Script.Cause

/-- How the message of a cause ends, whatever the names in it. -/
def ending : Cause → String
  | .agentAgain _ => "' is declared more than once"
  | .memberAgain _ _ _ => "' more than once"
  | .stateAgain _ => "' declares more than one state block"
  | .toolOutside _ => "' is declared outside of an agent"
  | .eventOutside _ => "' is declared outside of an agent"
  | .stateOutside => "state block is declared outside of an agent"
  | .strayBrace => "unexpected '\x7d' with no open block"
  | .neverClosed _ _ => " is never closed"

def isAgentAgain : Cause → Bool
  | .agentAgain _ => true
  | _ => false

def isStateAgain : Cause → Bool
  | .stateAgain _ => true
  | _ => false

/-- The endings by which warnings about repetitions are recognised. -/
def againEndings : List String :=
  ["' is declared more than once", "' more than once", "' declares more than one state block"]

lemma toList_suffix_append (a b : String) : b.toList <:+ (a ++ b).toList := by
  rw [String.toList_append]
  exact List.suffix_append _ _

lemma ending_suffix (c : Cause) : c.ending.toList <:+ c.message.toList := by
  cases c with
  | stateOutside => exact List.suffix_rfl
  | strayBrace => exact List.suffix_rfl
  | _ => exact toList_suffix_append _ _

lemma message_memberAgain (agent : String) (kind : MemberKind) (name : String) :
    (memberAgain agent kind name).message =
      "agent '" ++ agent ++ "' declares " ++ kind.name ++ " '" ++ name ++ "' more than once" := rfl

/-- A message ends like a repetition only if it is about one of that sort. -/
lemma suffix_message_iff {back : String} (hback : back ∈ againEndings) (c : Cause) :
    back.toList <:+ c.message.toList ↔ c.ending = back := by
  refine ⟨fun hsuffix => ?_, fun hending => hending ▸ c.ending_suffix⟩
  have hdistinct : ∀ back ∈ againEndings, ∀ ending ∈ againEndings ++
      ["' is declared outside of an agent", "state block is declared outside of an agent",
        "unexpected '\x7d' with no open block", " is never closed"],
      ending ≠ back → ¬back.toList <:+ ending.toList ∧ ¬ending.toList <:+ back.toList := by
    decide
  have hmem : c.ending ∈ againEndings ++
      ["' is declared outside of an agent", "state block is declared outside of an agent",
        "unexpected '\x7d' with no open block", " is never closed"] := by
    cases c <;> simp [ending, againEndings]
  by_contra hne
  obtain ⟨hnot, hnot'⟩ := hdistinct back hback c.ending hmem hne
  rcases List.suffix_or_suffix_of_suffix hsuffix c.ending_suffix with hsuffix | hsuffix
  · exact hnot hsuffix
  · exact hnot' hsuffix

end Script.Cause

namespace Diagnostic

/-- A warning about an agent, with the given end of its message. -/
def warns (back : String) (d : Diagnostic) : Bool :=
  d.severity == .warning && "agent '".toList.isPrefixOf d.message.toList &&
    back.toList.isSuffixOf d.message.toList

/-- The warning that an agent is declared more than once. -/
def saysAgentAgain (d : Diagnostic) : Bool := d.warns "' is declared more than once"

/-- The warning that an agent declares more than one state block. -/
def saysStateAgain (d : Diagnostic) : Bool := d.warns "' declares more than one state block"

/-- The warning that an agent declares a tool or an event handler more than once. -/
def saysMemberAgain (d : Diagnostic) : Bool :=
  d.warns "' more than once" && ("' declares tool '".toList <:+: d.message.toList ∨
    "' declares event '".toList <:+: d.message.toList)

end Diagnostic

namespace Script.Finding

/-- The test of messages is one of causes. -/
lemma warns_toDiagnostic {back : String} (hback : back ∈ Cause.againEndings) (f : Finding) :
    f.toDiagnostic.warns back = decide (f.cause.ending = back) := by
  rw [Bool.eq_iff_iff, decide_eq_true_eq, ← Cause.suffix_message_iff hback, Diagnostic.warns,
    Bool.and_eq_true, List.isSuffixOf_iff_suffix, Bool.and_eq_true, List.isPrefixOf_iff_prefix]
  refine ⟨And.right, fun hsuffix => ⟨?_, hsuffix⟩⟩
  obtain rfl := (Cause.suffix_message_iff hback f.cause).1 hsuffix
  have hagent : ∀ name rest : String, "agent '".toList <+: ("agent '" ++ name ++ rest).toList := by
    intro name rest
    rw [String.append_assoc, String.toList_append]
    exact List.prefix_append _ _
  obtain ⟨line, cause⟩ := f
  cases cause with
  | agentAgain name => exact ⟨rfl, hagent name _⟩
  | memberAgain agent kind name =>
    refine ⟨rfl, ?_⟩
    rw [Finding.toDiagnostic, Cause.message_memberAgain, String.append_assoc, String.append_assoc,
      String.append_assoc, String.append_assoc]
    exact hagent agent _
  | stateAgain agent => exact ⟨rfl, hagent agent _⟩
  | _ => simp [Cause.againEndings, Cause.ending] at hback

lemma saysAgentAgain_toDiagnostic (f : Finding) :
    f.toDiagnostic.saysAgentAgain = f.cause.isAgentAgain := by
  rw [Diagnostic.saysAgentAgain, warns_toDiagnostic (by decide)]
  cases f.cause <;> rfl

lemma saysStateAgain_toDiagnostic (f : Finding) :
    f.toDiagnostic.saysStateAgain = f.cause.isStateAgain := by
  rw [Diagnostic.saysStateAgain, warns_toDiagnostic (by decide)]
  cases f.cause <;> rfl

lemma saysMemberAgain_toDiagnostic (f : Finding) :
    f.toDiagnostic.saysMemberAgain = f.cause.isMemberAgain := by
  rw [Diagnostic.saysMemberAgain, warns_toDiagnostic (by decide)]
  obtain ⟨line, cause⟩ := f
  cases cause with
  | memberAgain agent kind name =>
    have hinfix : "' declares tool '".toList <:+:
          (Cause.memberAgain agent kind name).message.toList ∨
        "' declares event '".toList <:+: (Cause.memberAgain agent kind name).message.toList := by
      cases kind with
      | tool =>
        left
        refine ⟨"agent '".toList ++ agent.toList, name.toList ++ "' more than once".toList, ?_⟩
        simp [Cause.message_memberAgain, MemberKind.name]
      | event =>
        right
        refine ⟨"agent '".toList ++ agent.toList, name.toList ++ "' more than once".toList, ?_⟩
        simp [Cause.message_memberAgain, MemberKind.name]
    rw [Finding.toDiagnostic, decide_eq_true hinfix]
    rfl
  | agentAgain _ => rfl
  | stateAgain _ => rfl
  | _ => rfl

end Script.Finding

/-! ## The balance of an outline -/

section Firsts

variable {α κ : Type} [DecidableEq κ] (key : α → κ) (xs : List α)

lemma nodup_firstsBy : ((firstsBy key xs).map key).Nodup := by
  induction xs with
  | nil => exact List.nodup_nil
  | cons x xs ih =>
    rw [firstsBy, List.map_cons, List.nodup_cons]
    refine ⟨fun hmem => ?_, (List.filter_sublist.map _).nodup ih⟩
    obtain ⟨y, hy, hsame⟩ := List.mem_map.1 hmem
    exact of_decide_eq_true (List.mem_filter.1 hy).2 hsame

/-- The firsts have the same keys as all. -/
lemma mem_map_firstsBy {k : κ} : k ∈ (firstsBy key xs).map key ↔ k ∈ xs.map key := by
  refine ⟨fun hmem => ((firstsBy_sublist key xs).map key).subset hmem, fun hmem => ?_⟩
  obtain ⟨x, hx, rfl⟩ := List.mem_map.1 hmem
  have hsome : (xs.find? (key · = key x)).isSome := by
    rw [List.find?_isSome]
    exact ⟨x, hx, decide_eq_true rfl⟩
  obtain ⟨first, hfirst⟩ := Option.isSome_iff_exists.1 hsome
  have hfilter : first ∈ (firstsBy key xs).filter (key · = key x) := by
    rw [filter_firstsBy, hfirst]
    exact List.mem_singleton_self first
  obtain ⟨hmem, hkey⟩ := List.mem_filter.1 hfilter
  exact List.mem_map.2 ⟨first, hmem, of_decide_eq_true hkey⟩

/-- There are as many firsts as there are keys. -/
lemma length_firstsBy : (firstsBy key xs).length = (xs.map key).toFinset.card := by
  have hkeys : ((firstsBy key xs).map key).toFinset = (xs.map key).toFinset := by
    ext k
    rw [List.mem_toFinset, List.mem_toFinset, mem_map_firstsBy]
  rw [← hkeys, List.toFinset_card_of_nodup (nodup_firstsBy key xs), List.length_map]

end Firsts

/-- What tells members apart: agent, kind and name. -/
def Outline.memberKeys (o : Outline) : List (String × MemberKind × String) :=
  o.tools.map (fun t => (t.agent, .tool, t.name)) ++ o.events.map fun e => (e.agent, .event, e.name)

namespace Script

/-- How many diagnostics pass a test that tells causes. -/
lemma countP_diagnostics {test : Diagnostic → Bool} {sort : Cause → Bool}
    (h : ∀ f : Finding, test f.toDiagnostic = sort f.cause) (text : String) :
    (outline text).diagnostics.countP test = (reading text).noted sort := by
  have hperm : (outline text).diagnostics.Perm ((reading text).findings.map Finding.toDiagnostic) :=
    perm_diagnostics (reading text)
  rw [Reading.noted, hperm.countP_eq, List.countP_map]
  exact List.countP_congr fun f _ => by rw [Function.comp_apply, h]

namespace Reading

variable {r : Reading}

/-- What is declared less what is different is what was noted. -/
lemma Accounted.balance (h : r.Accounted) {sort : Cause → Bool}
    (hsort : ∀ c, sort c = true → c.isAgain = true) {κ : Type} [DecidableEq κ] {cause : κ → Cause}
    (hcause : Function.Injective cause) {keys : List κ} (hkeys : r.taken.filter sort = keys.map cause) :
    keys.toFinset.card + r.noted sort = keys.length := by
  have hbalance := h sort hsort
  have himage : (keys.map cause).toFinset = keys.toFinset.image cause := by
    ext c
    simp
  rwa [hkeys, himage, Finset.card_image_of_injective _ hcause, List.length_map] at hbalance

lemma Accounted.agents (h : r.Accounted) :
    (r.agents.map (·.name)).toFinset.card + r.noted Cause.isAgentAgain = r.agents.length := by
  have hkeys : r.taken.filter Cause.isAgentAgain = (r.agents.map (·.name)).map Cause.agentAgain := by
    simp [taken, List.filter_map, Function.comp_def, Cause.isAgentAgain]
  have hbalance := h.balance (fun c hc => by cases c <;> first | rfl | cases hc)
    (fun _ _ => Cause.agentAgain.inj) hkeys
  rwa [List.length_map] at hbalance

lemma Accounted.states (h : r.Accounted) :
    (r.states.map (·.agent)).toFinset.card + r.noted Cause.isStateAgain = r.states.length := by
  have hkeys : r.taken.filter Cause.isStateAgain = (r.states.map (·.agent)).map Cause.stateAgain := by
    simp [taken, List.filter_map, Function.comp_def, Cause.isStateAgain]
  have hbalance := h.balance (fun c hc => by cases c <;> first | rfl | cases hc)
    (fun _ _ => Cause.stateAgain.inj) hkeys
  rwa [List.length_map] at hbalance

lemma Accounted.members (h : r.Accounted) :
    r.outline.memberKeys.toFinset.card + r.noted Cause.isMemberAgain =
      r.tools.length + r.events.length := by
  have hkeys : r.taken.filter Cause.isMemberAgain =
      r.outline.memberKeys.map fun key => .memberAgain key.1 key.2.1 key.2.2 := by
    simp [taken, Outline.memberKeys, outline, List.filter_map, Function.comp_def, Cause.isMemberAgain]
  have hinjective : Function.Injective fun key : String × MemberKind × String =>
      Cause.memberAgain key.1 key.2.1 key.2.2 := by
    rintro ⟨agent, kind, name⟩ ⟨agent', kind', name'⟩ hsame
    simpa using hsame
  have hbalance := h.balance (fun c hc => by cases c <;> first | rfl | cases hc) hinjective hkeys
  rwa [Outline.memberKeys, List.length_append, List.length_map, List.length_map] at hbalance

end Reading

end Script

/-! ## The nodes of a layout -/

lemma map_declaration_spotsFrom (before : List Title) (ds : List Declaration) :
    (spotsFrom before ds).map Spot.declaration = ds := by
  induction ds generalizing before with
  | nil => rfl
  | cons d ds ih => rw [spotsFrom, List.map_cons, ih]

/-- The node of a declaration, which says what was declared. -/
def Declaration.ShownBy (d : Declaration) (n : Node) : Prop :=
  (∃ k, n.id = Layout.numbered d.title.id k) ∧ n.content = d.content

lemma Outline.Sound.shownBy {o : Outline} (h : o.Sound) :
    List.Forall₂ Declaration.ShownBy o.placed (layout o).nodes := by
  have hshown : List.Forall₂ Eq ((spotsFrom [] o.placed).map Spot.shown)
      ((layout o).nodes.map fun n => (n.id, n.content)) :=
    List.forall₂_eq_eq_eq ▸ (h.shows_layoutOn {}).2.1.symm
  rw [List.forall₂_map_left_iff, List.forall₂_map_right_iff] at hshown
  rw [← map_declaration_spotsFrom [] o.placed, List.forall₂_map_left_iff]
  refine hshown.imp fun s n hsame => ⟨⟨s.number, ?_⟩, ?_⟩
  · exact (congrArg Prod.fst hsame).symm
  · exact (congrArg Prod.snd hsame).symm

/-- Every declaration but repeated agents and state blocks has a node of its own. -/
lemma Outline.Owned.exists_nodes {o : Outline} (h : o.Owned) (hsound : o.Sound) :
    ∃ nodes : List Node, nodes.Perm (layout o).nodes ∧
      List.Forall₂ Declaration.ShownBy o.declarations nodes := by
  obtain ⟨nodes, hshown, hperm⟩ := List.perm_comp_forall₂ h.perm_placed.symm hsound.shownBy
  exact ⟨nodes, hperm, hshown⟩

/-! ## The census -/

/-- The count of what was declared agrees with that of the nodes and the warnings. -/
structure Tallied (o : Outline) (g : Graph) : Prop where
  /-- What has no node is an agent or a state block, and was reported. -/
  missing : o.agents.length + o.tools.length + o.events.length + o.states.length + o.types.length =
    g.nodes.length + (o.diagnostics.countP Diagnostic.saysAgentAgain +
      o.diagnostics.countP Diagnostic.saysStateAgain)
  /-- All but repeated agents and state blocks have nodes of their own. -/
  shown : ∃ nodes : List Node, nodes.Perm g.nodes ∧
    List.Forall₂ Declaration.ShownBy o.declarations nodes
  /-- Members that come again were reported, one by one. -/
  repeated : o.diagnostics.countP Diagnostic.saysMemberAgain + o.memberKeys.toFinset.card =
    o.tools.length + o.events.length

/-- **Nothing vanishes between a text and its graph.** -/
theorem tallied_layout (text : String) : Tallied (outline text) (layout (outline text)) := by
  have hbalance := accounted_reading text
  obtain ⟨nodes, hperm, hshown⟩ := (owned_outline text).exists_nodes (sound_outline text)
  constructor
  case missing =>
    have hlength : (layout (outline text)).nodes.length =
        (((outline text).agents.map (·.name)).toFinset.card + (outline text).tools.length +
          (outline text).events.length + ((outline text).states.map (·.agent)).toFinset.card +
          (outline text).types.length) := by
      rw [← hperm.length_eq, ← hshown.length_eq, Outline.declarations]
      simp only [List.length_append, List.length_map, length_firstsBy]
    have hagents : ((outline text).agents.map (·.name)).toFinset.card +
        (reading text).noted Cause.isAgentAgain = (outline text).agents.length := hbalance.agents
    have hstates : ((outline text).states.map (·.agent)).toFinset.card +
        (reading text).noted Cause.isStateAgain = (outline text).states.length := hbalance.states
    rw [countP_diagnostics Finding.saysAgentAgain_toDiagnostic,
      countP_diagnostics Finding.saysStateAgain_toDiagnostic, hlength]
    omega
  case shown => exact ⟨nodes, hperm, hshown⟩
  case repeated =>
    rw [countP_diagnostics Finding.saysMemberAgain_toDiagnostic, Nat.add_comm]
    exact hbalance.members

end AgentScript
