import AgentScript.Proofs.Script.Skeleton
import AgentScript.Proofs.Script.Steps
import Mathlib.Data.List.Perm.Basic

/-!
# Reading follows the skeleton

The scopes that are open while a script is read are the braces that are open in its skeleton, the
agents, tools, event handlers and state blocks that are recorded belong to the headers that occur in
it, and the findings about members without an agent and about stray braces are those that it calls
for (`Reading.Follows`).  Every step keeps this, so it holds of every script whose tools have plain
parameters (`Reading.follows_scriptLines`), and closing what is left open completes it
(`Reading.Follows.finish`).

Ownership is therefore a matter of braces alone: a member belongs to the agent whose braces it stands
between, however the text is laid out, and the same braces tell which members are left out and
reported.
-/

namespace AgentScript

/-- Whether one place comes before another, by lines and then by columns. -/
def Place.Before (p q : Place) : Prop := p.line < q.line ∨ p.line = q.line ∧ p.column < q.column

lemma Place.Before.ne {p q : Place} (h : p.Before q) : p ≠ q := by
  rintro rfl
  unfold Place.Before at h
  omega

namespace Script

/-! ## Members -/

/-- A recorded tool, event handler or state block: its header as it was read, the name of the agent
it belongs to, and where the header stands. -/
structure Member where
  header : Header
  agent : String
  place : Place
  deriving DecidableEq, Repr, Inhabited

end Script

open Script

def ToolDecl.member (d : ToolDecl) : Member := ⟨.tool d.name d.params d.returns, d.agent, d.place⟩

def EventDecl.member (d : EventDecl) : Member := ⟨.event d.name, d.agent, d.place⟩

def StateDecl.member (d : StateDecl) : Member := ⟨.state, d.agent, d.place⟩

/-- The members that an outline records. -/
def Outline.members (o : Outline) : List Member :=
  o.tools.map ToolDecl.member ++ o.events.map EventDecl.member ++ o.states.map StateDecl.member

/-- The name and the place of an agent. -/
def AgentDecl.named (d : AgentDecl) : String × Place := (d.name, d.place)

namespace Script

/-- What is found about a header that no agent encloses, if an agent should. -/
def Header.outside? : Header → Option Cause
  | .tool name _ _ => some (.toolOutside name)
  | .event name => some (.eventOutside name)
  | .state => some .stateOutside
  | _ => none

/-- Whether the cause is a member that no agent encloses. -/
def Cause.isOutside : Cause → Bool
  | .toolOutside _ => true
  | .eventOutside _ => true
  | .stateOutside => true
  | _ => false

/-- What a header declares as a member of the agent around it. -/
def Opening.member? (agent? : Option String) (line : Nat) (o : Opening) : Option Member :=
  if o.header.outside?.isSome then agent?.map fun agent => ⟨o.header, agent, ⟨line, o.column⟩⟩
  else none

/-- What is found about a header if no agent encloses it. -/
def Opening.outside? (agent? : Option String) (line : Nat) (o : Opening) : Option Finding :=
  if agent?.isNone then o.header.outside?.map (⟨line, ·⟩) else none

namespace Occurrence

/-- The agent that the header declares. -/
def declares? (m : Occurrence) : Option (String × Place) := OpenBrace.agent? ⟨m.line, some m.opening⟩

/-- The member that the header declares, if an agent encloses it. -/
def member? (m : Occurrence) : Option Member := m.opening.member? (m.agent?.map (·.1)) m.line

/-- The finding that the header calls for, if no agent encloses it but one should. -/
def outside? (m : Occurrence) : Option Finding := m.opening.outside? (m.agent?.map (·.1)) m.line

end Occurrence

/-! ## Scopes of braces -/

/-- The scope without the fields it has collected. -/
def Scope.bare : Scope → Scope
  | .state owner place _ => .state owner place []
  | .type name place _ => .type name place []
  | scope => scope

/-- The member that a scope will record. -/
def Scope.member? : Scope → Option Member
  | .state (some owner) place _ => some ⟨.state, owner, place⟩
  | _ => none

/-- The scope that a brace opens within the given agent. -/
def OpenBrace.scope (agent? : Option String) (b : OpenBrace) : Scope :=
  match b.header with
  | some ⟨.agent name, _, _⟩ => .agent name b.line
  | some ⟨.state, column, _⟩ => .state agent? ⟨b.line, column⟩ []
  | some ⟨.type name, column, _⟩ => .type name ⟨b.line, column⟩ []
  | _ => .block b.line

/-- The scopes that some open braces stand for, the innermost first. -/
def scopesOf : List OpenBrace → List Scope
  | [] => []
  | b :: outer => b.scope ((outer.findSome? OpenBrace.agent?).map (·.1)) :: scopesOf outer

lemma agentName?_bare (scope : Scope) : scope.bare.agentName? = scope.agentName? := by
  cases scope <;> rfl

lemma holdsFields_bare (scope : Scope) : scope.bare.holdsFields = scope.holdsFields := by
  cases scope <;> rfl

lemma bare_collect (scope : Scope) (segment : List Char) :
    (scope.collect segment).bare = scope.bare := by
  cases scope <;> rfl

lemma member?_collect (scope : Scope) (segment : List Char) :
    (scope.collect segment).member? = scope.member? := by
  match scope with
  | .agent _ _ => rfl
  | .block _ => rfl
  | .state none _ _ => rfl
  | .state (some _) _ _ => rfl
  | .type _ _ _ => rfl

/-- What is found about a scope that is never closed. -/
def Scope.neverClosed (scope : Scope) : Finding :=
  ⟨scope.line, .neverClosed scope.opener scope.line⟩

/-- What is found about a brace that is never closed. -/
def OpenBrace.neverClosed (b : OpenBrace) : Finding := ⟨b.line, .neverClosed b.opener b.line⟩

lemma neverClosed_bare (scope : Scope) : scope.bare.neverClosed = scope.neverClosed := by
  cases scope <;> rfl

namespace OpenBrace

variable (b : OpenBrace) (agent? : Option String)

lemma agentName?_scope : (b.scope agent?).agentName? = b.agent?.map (·.1) := by
  obtain ⟨line, _ | ⟨header, column, rest⟩⟩ := b
  · rfl
  · cases header <;> rfl

lemma holdsFields_scope : (b.scope agent?).holdsFields = b.holdsFields := by
  obtain ⟨line, _ | ⟨header, column, rest⟩⟩ := b
  · rfl
  · cases header <;> rfl

lemma neverClosed_scope : (b.scope agent?).neverClosed = b.neverClosed := by
  obtain ⟨line, _ | ⟨header, column, rest⟩⟩ := b
  · rfl
  · cases header <;> rfl

end OpenBrace

lemma innermostAgent?_bare (scopes : List Scope) :
    innermostAgent? (scopes.map Scope.bare) = innermostAgent? scopes := by
  rw [innermostAgent?, innermostAgent?, List.findSome?_map]
  congr 1
  funext scope
  exact agentName?_bare scope

/-- The agent around a place is the same for scopes and for braces. -/
lemma innermostAgent?_scopesOf (bs : List OpenBrace) :
    innermostAgent? (scopesOf bs) = (bs.findSome? OpenBrace.agent?).map (·.1) := by
  induction bs with
  | nil => rfl
  | cons b outer ih =>
    rw [innermostAgent?] at ih
    rw [scopesOf, innermostAgent?, List.findSome?_cons, List.findSome?_cons,
      OpenBrace.agentName?_scope, ih]
    cases b.agent? <;> rfl

lemma map_neverClosed_scopesOf (bs : List OpenBrace) :
    (scopesOf bs).map Scope.neverClosed = bs.map OpenBrace.neverClosed := by
  induction bs with
  | nil => rfl
  | cons b outer ih => rw [scopesOf, List.map_cons, List.map_cons, ih, b.neverClosed_scope]

namespace Reading

/-- The members that a reading has recorded, and those that its open scopes will record. -/
def members (r : Reading) : List Member :=
  r.tools.map ToolDecl.member ++ r.events.map EventDecl.member ++ r.states.map StateDecl.member ++
    r.scopes.filterMap Scope.member?

/-- The findings about members that no agent encloses. -/
def outsideFindings (r : Reading) : List Finding := r.findings.filter (·.cause.isOutside)

/-- The findings that are errors. -/
def errorFindings (r : Reading) : List Finding := r.findings.filter (·.toDiagnostic.isError)

/-- The reading is the one that the braces read so far call for. -/
structure Follows (bs : List Brace) (r : Reading) : Prop where
  scopes : r.scopes.map Scope.bare = scopesOf (matching bs).unclosed
  agents : r.agents.map AgentDecl.named = (occurrencesIn [] bs).filterMap Occurrence.declares?
  members : r.members.Perm ((occurrencesIn [] bs).filterMap Occurrence.member?)
  outside : r.outsideFindings = (occurrencesIn [] bs).filterMap Occurrence.outside?
  errors : r.errorFindings = (matching bs).strays.map (⟨·, .strayBrace⟩)

variable {r d : Reading} {bs : List Brace} {line : Nat} {later : List (List Char)}

/-! ## What is recorded piece by piece -/

lemma members_append (r d : Reading) : (r ++ d).members.Perm (r.members ++ d.members) := by
  rw [List.perm_iff_count]
  intro x
  simp only [members, scopes_append, tools_append, events_append, states_append, List.map_append,
    List.filterMap_append, List.count_append]
  omega

@[simp] lemma members_note (r : Reading) (line : Nat) (cause? : Option Cause) :
    (r.note line cause?).members = r.members := rfl

lemma members_kept (scope : Scope) : (kept scope).members = scope.member?.toList := by
  match scope with
  | .agent _ _ => rfl
  | .block _ => rfl
  | .state none _ _ => rfl
  | .state (some _) _ _ => rfl
  | .type _ _ _ => rfl

@[simp] lemma outsideFindings_append (r d : Reading) :
    (r ++ d).outsideFindings = r.outsideFindings ++ d.outsideFindings := List.filter_append ..

@[simp] lemma errorFindings_append (r d : Reading) :
    (r ++ d).errorFindings = r.errorFindings ++ d.errorFindings := List.filter_append ..

/-- What was declared before is a warning, and not one about a missing agent. -/
lemma repeats_eq_some {agent? : Option String} {header : Header} {cause : Cause}
    (h : r.repeats agent? header = some cause) :
    cause.isOutside = false ∧ cause.severity = .warning := by
  unfold repeats at h
  split at h
  · obtain ⟨-, ⟨⟩⟩ := Option.ite_none_right_eq_some.1 h
    exact ⟨rfl, rfl⟩
  · obtain ⟨agent, -, hagent⟩ := Option.bind_eq_some_iff.1 h
    obtain ⟨-, ⟨⟩⟩ := Option.ite_none_right_eq_some.1 hagent
    exact ⟨rfl, rfl⟩
  · obtain ⟨agent, -, hagent⟩ := Option.bind_eq_some_iff.1 h
    obtain ⟨-, ⟨⟩⟩ := Option.ite_none_right_eq_some.1 hagent
    exact ⟨rfl, rfl⟩
  · cases h

lemma repeatsState_eq_some {scope : Scope} {cause : Cause}
    (h : r.repeatsState scope = some cause) :
    cause.isOutside = false ∧ cause.severity = .warning := by
  obtain ⟨agent, -, hagent⟩ := Option.bind_eq_some_iff.1 h
  obtain ⟨-, ⟨⟩⟩ := Option.ite_none_right_eq_some.1 hagent
  exact ⟨rfl, rfl⟩

section Note

variable {cause? : Option Cause}
  (h : ∀ cause, cause? = some cause → cause.isOutside = false ∧ cause.severity = .warning)
include h

lemma outsideFindings_note (r : Reading) (line : Nat) :
    (r.note line cause?).outsideFindings = r.outsideFindings := by
  cases cause? with
  | none => simp [outsideFindings]
  | some cause => simp [outsideFindings, (h cause rfl).1]

lemma errorFindings_note (r : Reading) (line : Nat) :
    (r.note line cause?).errorFindings = r.errorFindings := by
  cases cause? with
  | none => simp [errorFindings]
  | some cause => simp [errorFindings, Finding.toDiagnostic, Diagnostic.isError, (h cause rfl).2]

lemma Follows.note (hr : Follows bs r) : Follows bs (r.note line cause?) where
  scopes := hr.scopes
  agents := hr.agents
  members := hr.members
  outside := (outsideFindings_note h r line).trans hr.outside
  errors := (errorFindings_note h r line).trans hr.errors

end Note

/-! ## Opening -/

lemma follows_nil : Follows [] {} := ⟨rfl, rfl, .refl _, rfl, rfl⟩

/-- The agent around a place is the one the braces tell. -/
lemma Follows.agent?_eq (h : Follows bs r) : r.agent? = (enclosingAgent? bs).map (·.1) := by
  rw [agent?, ← innermostAgent?_bare, h.scopes, innermostAgent?_scopesOf, enclosingAgent?]

/-- A line begins within fields if the braces say so. -/
lemma Follows.inFields_eq (h : Follows bs r) :
    r.inFields = (matching bs).unclosed.head?.any OpenBrace.holdsFields := by
  have hscopes := h.scopes
  rw [inFields]
  cases hr : r.scopes with
  | nil =>
    rw [hr] at hscopes
    cases hbs : (matching bs).unclosed with
    | nil => rfl
    | cons b outer =>
      rw [hbs, scopesOf] at hscopes
      cases hscopes
  | cons scope outer =>
    rw [hr] at hscopes
    cases hbs : (matching bs).unclosed with
    | nil =>
      rw [hbs] at hscopes
      cases hscopes
    | cons b inner =>
      rw [hbs, List.map_cons, scopesOf] at hscopes
      have hhead := congrArg Scope.holdsFields (List.cons.inj hscopes).1
      rw [holdsFields_bare, OpenBrace.holdsFields_scope] at hhead
      exact hhead

/-- A step that adds what an opening brace calls for. -/
lemma Follows.opening (h : Follows bs r) (b : OpenBrace)
    (hscopes : d.scopes.map Scope.bare = [b.scope ((enclosingAgent? bs).map (·.1))])
    (hagents : d.agents.map AgentDecl.named =
      ((Brace.opening b).occurrence? bs).toList.filterMap Occurrence.declares?)
    (hmembers : d.members = ((Brace.opening b).occurrence? bs).toList.filterMap Occurrence.member?)
    (houtside : d.outsideFindings =
      ((Brace.opening b).occurrence? bs).toList.filterMap Occurrence.outside?)
    (herrors : d.errorFindings = []) : Follows (bs ++ [.opening b]) (r ++ d) where
  scopes := by
    rw [scopes_append, List.map_append, hscopes, h.scopes, unclosed_append_opening, scopesOf,
      enclosingAgent?]
    rfl
  agents := by
    rw [agents_append, List.map_append, h.agents, hagents, occurrencesIn_append_singleton,
      List.filterMap_append]
  members := by
    rw [occurrencesIn_append_singleton, List.filterMap_append, ← hmembers]
    exact (members_append r d).trans (h.members.append_right d.members)
  outside := by
    rw [outsideFindings_append, h.outside, houtside, occurrencesIn_append_singleton,
      List.filterMap_append]
  errors := by
    rw [errorFindings_append, h.errors, herrors, List.append_nil, strays_append_opening]

lemma Follows.push (h : Follows bs r) (line : Nat) :
    Follows (bs ++ [.opening ⟨line, none⟩]) (r.push (.block line)) := by
  have hpush : r.push (.block line) = r ++ { scopes := [.block line] } := by
    ext : 1 <;> simp [Reading.push]
  rw [hpush]
  exact h.opening ⟨line, none⟩ rfl rfl rfl rfl rfl

/-- What a header adds, seen from its brace. -/
lemma opened_fields (agent? : Option String) (line : Nat) (later : List (List Char)) (o : Opening) :
    (opened agent? line later o).scopes.map Scope.bare = [OpenBrace.scope agent? ⟨line, some o⟩] ∧
      (opened agent? line later o).agents.map AgentDecl.named =
        (OpenBrace.agent? ⟨line, some o⟩).toList ∧
      (opened agent? line later o).members = (o.member? agent? line).toList ∧
      (opened agent? line later o).outsideFindings = (o.outside? agent? line).toList ∧
      (opened agent? line later o).errorFindings = [] := by
  obtain ⟨header, column, rest⟩ := o
  cases header <;> cases agent? <;> exact ⟨rfl, rfl, rfl, rfl, rfl⟩

lemma Follows.openOne (h : Follows bs r) (line : Nat) (later : List (List Char)) (o : Opening) :
    Follows (bs ++ [o.brace line]) (r.openOne line later o) := by
  have hone : ∀ {α : Type} (f : Occurrence → Option α),
      ((o.brace line).occurrence? bs).toList.filterMap f = (f ⟨line, o, bs⟩).toList := by
    intro α f
    rw [Opening.brace, Brace.occurrence?, Option.toList_some, List.filterMap_cons]
    cases f ⟨line, o, bs⟩ <;> rfl
  obtain ⟨hscopes, hagents, hmembers, houtside, herrors⟩ :=
    opened_fields ((enclosingAgent? bs).map (·.1)) line later o
  rw [openOne_eq, h.agent?_eq]
  exact (h.note fun _ => repeats_eq_some).opening ⟨line, some o⟩ hscopes
    (hagents.trans (hone Occurrence.declares?).symm) (hmembers.trans (hone Occurrence.member?).symm)
    (houtside.trans (hone Occurrence.outside?).symm) herrors

lemma Follows.foldl_openOne (os : List Opening) (h : Follows bs r) :
    Follows (bs ++ os.map (·.brace line)) (os.foldl (Reading.openOne line later) r) := by
  induction os generalizing bs r with
  | nil => rwa [List.map_nil, List.append_nil]
  | cons o os ih =>
    have hos := ih (h.openOne line later o)
    rwa [List.append_assoc, List.singleton_append] at hos

/-! ## Body text -/

lemma Follows.collect (h : Follows bs r) (segment : List Char) : Follows bs (r.collect segment) := by
  cases hr : r.scopes with
  | nil => rwa [Reading.collect, hr]
  | cons scope outer =>
    rw [Reading.collect, hr]
    have hscopes := h.scopes
    have hmembers := h.members
    rw [hr, List.map_cons] at hscopes
    rw [Reading.members, hr, List.filterMap_cons] at hmembers
    refine ⟨?_, h.agents, ?_, h.outside, h.errors⟩
    · rwa [List.map_cons, bare_collect]
    · rw [Reading.members, List.filterMap_cons, member?_collect]
      exact hmembers

lemma Follows.close (h : Follows bs r) (line : Nat) :
    Follows (bs ++ [.closing line]) (r.close line) := by
  have hoccurrences : occurrencesIn [] (bs ++ [.closing line]) = occurrencesIn [] bs := by
    rw [occurrencesIn_append_singleton]
    exact List.append_nil _
  have hscopes := h.scopes
  cases hbs : (matching bs).unclosed with
  | nil =>
    rw [hbs, scopesOf, List.map_eq_nil_iff] at hscopes
    rw [close_eq_of_nil hscopes]
    refine ⟨?_, ?_, ?_, ?_, ?_⟩
    · rw [scopes_note, hscopes, unclosed_append_closing, hbs]
      rfl
    · rw [hoccurrences]
      exact h.agents
    · rw [hoccurrences]
      exact h.members
    · rw [hoccurrences, ← h.outside]
      simp [outsideFindings, Cause.isOutside]
    · rw [strays_append_closing, if_pos hbs, List.map_append, ← h.errors]
      simp [errorFindings, Finding.toDiagnostic, Diagnostic.isError, Cause.severity]
  | cons b inner =>
    rw [hbs, scopesOf, List.map_eq_cons_iff] at hscopes
    obtain ⟨scope, outer, hr, -, houter⟩ := hscopes
    rw [close_eq_of_cons hr]
    refine ⟨?_, ?_, ?_, ?_, ?_⟩
    · rw [scopes_append, scopes_kept, unclosed_append_closing, hbs]
      simpa [pop, hr] using houter
    · rw [hoccurrences, agents_append, agents_kept, List.append_nil]
      exact h.agents
    · rw [hoccurrences]
      refine ((members_append _ _).trans ?_).trans h.members
      rw [members_kept, members_note, List.perm_iff_count]
      intro x
      simp only [Reading.members, pop, hr, List.tail_cons, List.filterMap_cons, List.count_append]
      cases scope.member? with
      | none => simp
      | some m =>
        simp only [Option.toList_some, List.count_cons, List.count_nil]
        omega
    · rw [hoccurrences, outsideFindings_append, outsideFindings_note fun _ => repeatsState_eq_some,
        ← h.outside]
      simp [outsideFindings, pop]
    · rw [strays_append_closing, if_neg (by simp [hbs]), List.append_nil, errorFindings_append,
        errorFindings_note fun _ => repeatsState_eq_some, ← h.errors]
      simp [errorFindings, pop]

/-- What is kept by the steps of body text, each with the brace that it reads, is kept by body text
with its braces. -/
theorem body_tag_induction {P : List Brace → Reading → Prop}
    (hcollect : ∀ bs r segment, P bs r → P bs (r.collect segment))
    (hblock : ∀ bs r, P bs r → P (bs ++ [.opening ⟨line, none⟩]) (r.push (.block line)))
    (hclose : ∀ bs r, P bs r → P (bs ++ [.closing line]) (r.close line)) (h : P bs r)
    (segment cs : List Char) : P (bs ++ tag line [] cs) (Reading.body line segment cs r) := by
  induction cs generalizing bs r segment with
  | nil =>
    rw [tag, List.append_nil]
    exact hcollect bs r segment h
  | cons c cs ih =>
    have hcollected := hcollect bs r segment h
    rw [tag, Reading.body]
    split_ifs
    · rw [← List.singleton_append, ← List.append_assoc]
      exact ih (hblock _ _ hcollected) []
    · rw [← List.singleton_append, ← List.append_assoc]
      exact ih (hclose _ _ hcollected) []
    · exact ih h _

lemma Follows.body (h : Follows bs r) (segment cs : List Char) :
    Follows (bs ++ tag line [] cs) (Reading.body line segment cs r) := by
  refine body_tag_induction ?_ ?_ ?_ h segment cs
  · exact fun _ _ segment hr => hr.collect segment
  · exact fun _ _ hr => hr.push line
  · exact fun _ _ hr => hr.close line

/-! ## Lines -/

/-- The openings of a line are its headers. -/
lemma Follows.opened_eq (h : Follows bs r) (text : List Char) :
    (if r.inFields then [] else openings text) = headersOf bs text := by
  rw [h.inFields_eq, headersOf]

/-- **One line**: reading it follows its braces. -/
theorem Follows.nextLine {text : List Char} (h : Follows bs r)
    (hplain : ∀ o ∈ headersOf bs text, o.header.HasPlainParams) :
    Follows (bs ++ lineBraces line bs text) (r.line line text later) := by
  rw [lineBraces_eq hplain, ← List.append_assoc, Reading.line, h.opened_eq text]
  exact (h.foldl_openOne _).body [] _

/-- **Some lines**: reading them follows their braces. -/
theorem follows_linesFrom {ls : List (List Char)} (h : Follows bs r)
    (hplain : ∀ m ∈ occurrencesFrom line bs ls, m.header.HasPlainParams) :
    Follows (bs ++ bracesFrom line bs ls) (linesFrom line ls r) := by
  induction ls generalizing bs r line with
  | nil => rwa [bracesFrom, List.append_nil]
  | cons text later ih =>
    rw [bracesFrom, ← List.append_assoc, linesFrom]
    exact ih (h.nextLine (hasPlainParams_headersOf hplain)) fun m hm =>
      hplain m (List.mem_append_right _ hm)

/-- **A script**, up to the end of its text: reading it follows its braces. -/
theorem follows_scriptLines {text : String} (h : HasPlainTools text) :
    Follows (braces text) (linesFrom 1 (scriptLines text) {}) := by
  have hfollows := follows_linesFrom follows_nil h
  rwa [List.nil_append] at hfollows

/-! ## The end of the text -/

lemma errorFindings_finishOne (lineCount : Nat) (r : Reading) (scope : Scope) :
    (finishOne lineCount r scope).errorFindings = r.errorFindings ++ [scope.neverClosed] := by
  rw [finishOne, errorFindings_append, errorFindings_note fun _ => repeatsState_eq_some]
  simp [errorFindings, Finding.toDiagnostic, Diagnostic.isError, Cause.severity,
    Scope.neverClosed]

lemma outsideFindings_finishOne (lineCount : Nat) (r : Reading) (scope : Scope) :
    (finishOne lineCount r scope).outsideFindings = r.outsideFindings := by
  rw [finishOne, outsideFindings_append, outsideFindings_note fun _ => repeatsState_eq_some]
  simp [outsideFindings, Cause.isOutside]

lemma members_finishOne (lineCount : Nat) (r : Reading) (scope : Scope) :
    (finishOne lineCount r scope).members.Perm (r.members ++ scope.member?.toList) := by
  rw [finishOne, ← members_kept]
  exact members_append _ _

lemma agents_finishOne (lineCount : Nat) (r : Reading) (scope : Scope) :
    (finishOne lineCount r scope).agents = r.agents := by
  rw [finishOne, agents_append, agents_kept, List.append_nil, agents_note, agents_note]

lemma scopes_finishOne (lineCount : Nat) (r : Reading) (scope : Scope) :
    (finishOne lineCount r scope).scopes = r.scopes := by
  rw [finishOne, scopes_append, scopes_kept, List.nil_append, scopes_note, scopes_note]

/-- Closing the given scopes at the end. -/
lemma finish_scopes (lineCount : Nat) (scopes : List Scope) (r : Reading) :
    (scopes.foldl (finishOne lineCount) r).scopes = r.scopes ∧
      (scopes.foldl (finishOne lineCount) r).agents = r.agents ∧
      (scopes.foldl (finishOne lineCount) r).members.Perm
        (r.members ++ scopes.filterMap Scope.member?) ∧
      (scopes.foldl (finishOne lineCount) r).outsideFindings = r.outsideFindings ∧
      (scopes.foldl (finishOne lineCount) r).errorFindings =
        r.errorFindings ++ scopes.map Scope.neverClosed := by
  induction scopes generalizing r with
  | nil => simp
  | cons scope scopes ih =>
    obtain ⟨hscopes, hagents, hmembers, houtside, herrors⟩ := ih (finishOne lineCount r scope)
    rw [List.foldl_cons]
    refine ⟨?_, ?_, ?_, ?_, ?_⟩
    · rw [hscopes, scopes_finishOne]
    · rw [hagents, agents_finishOne]
    · have hsplit : (scope :: scopes).filterMap Scope.member? =
          scope.member?.toList ++ scopes.filterMap Scope.member? := by
        cases hscope : scope.member? <;> simp [hscope]
      rw [hsplit, ← List.append_assoc]
      exact hmembers.trans ((members_finishOne lineCount r scope).append_right _)
    · rw [houtside, outsideFindings_finishOne]
    · rw [herrors, errorFindings_finishOne, List.append_assoc, List.singleton_append, List.map_cons]

/-- **The end of the text**: everything is recorded, and every brace that is still open is an
error. -/
theorem Follows.finish (h : Follows bs r) (lineCount : Nat) :
    (r.finish lineCount).agents.map AgentDecl.named =
        (occurrencesIn [] bs).filterMap Occurrence.declares? ∧
      (r.finish lineCount).outline.members.Perm
        ((occurrencesIn [] bs).filterMap Occurrence.member?) ∧
      (r.finish lineCount).outsideFindings = (occurrencesIn [] bs).filterMap Occurrence.outside? ∧
      (r.finish lineCount).errorFindings =
        (matching bs).strays.map (⟨·, .strayBrace⟩) ++
          (matching bs).unclosed.map OpenBrace.neverClosed := by
  obtain ⟨hscopes, hagents, hmembers, houtside, herrors⟩ :=
    finish_scopes lineCount r.scopes { r with scopes := [] }
  rw [← finish_eq] at hscopes hagents hmembers houtside herrors
  refine ⟨?_, ?_, houtside.trans h.outside, ?_⟩
  · rw [hagents]
    exact h.agents
  · have houtline : (r.finish lineCount).members = (r.finish lineCount).outline.members := by
      rw [Reading.members, hscopes, List.filterMap_nil, List.append_nil]
      rfl
    rw [← houtline]
    refine hmembers.trans (.trans ?_ h.members)
    rw [Reading.members, Reading.members, List.filterMap_nil, List.append_nil]
  · have hneverClosed : r.scopes.map Scope.neverClosed =
        (matching bs).unclosed.map OpenBrace.neverClosed := by
      rw [← map_neverClosed_scopesOf, ← h.scopes, List.map_map]
      congr 1
      funext scope
      exact (neverClosed_bare scope).symm
    rw [herrors, ← hneverClosed, ← h.errors]
    rfl

end Reading

/-- The diagnostics of a reading are its findings. -/
lemma perm_diagnostics (r : Reading) :
    r.outline.diagnostics.Perm (r.findings.map Finding.toDiagnostic) := List.mergeSort_perm _ _

end Script

end AgentScript
