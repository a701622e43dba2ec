import AgentScript.Proofs.Script.Clauses
import AgentScript.Proofs.Script.Headers
import AgentScript.Proofs.Script.Masking
import AgentScript.Script.Reading
import Mathlib.Tactic.Common

/-!
# What every outline fulfils

Whatever a text says, and however broken it is, what was recorded while it was read is well formed:
names are names, types are types, parameters stand trimmed, no clause is empty, and every field can
be written (`Outline.Sound`).  Nothing of it spans two lines.

This is an invariant of reading, kept by every line.  Headers bring names and signatures, clauses are
never empty, and fields come from pieces of a line; so a step needs nothing of the text but that the
line is one.
-/

namespace AgentScript

open Script Text

/-! ## Sound declarations -/

/-- A field that can be written and fits on a line. -/
def SoundField (name type : String) : Prop := Writable name type ∧ '\n' ∉ type.toList

structure AgentDecl.Sound (a : AgentDecl) : Prop where
  isName : isName a.name.toList = true
  description : ∀ text ∈ a.description, text ≠ ""
  version : ∀ text ∈ a.version, text ≠ ""
  model : ∀ m ∈ a.model, (∀ name ∈ m.name, name ≠ "") ∧ ∀ provider ∈ m.provider, provider ≠ ""

structure ToolDecl.Sound (t : ToolDecl) : Prop where
  isName : isName t.name.toList = true
  params : Header.IsParams t.params.toList
  returns : ∀ type ∈ t.returns, isType type.toList = true ∧ '\n' ∉ type.toList
  description : ∀ text ∈ t.description, text ≠ ""

def EventDecl.Sound (e : EventDecl) : Prop :=
  isName e.name.toList = true ∧ e.eventClass = .ofName e.name

def StateDecl.Sound (s : StateDecl) : Prop := ∀ f ∈ s.fields, SoundField f.name f.type

def TypeDecl.Sound (t : TypeDecl) : Prop :=
  isName t.name.toList = true ∧ ∀ f ∈ t.fields, SoundField f.name f.type

/-- An outline whose declarations are well formed. -/
structure Outline.Sound (o : Outline) : Prop where
  agents : ∀ a ∈ o.agents, a.Sound
  tools : ∀ t ∈ o.tools, t.Sound
  events : ∀ e ∈ o.events, e.Sound
  states : ∀ s ∈ o.states, s.Sound
  types : ∀ t ∈ o.types, t.Sound

namespace Script

/-- What an open scope has collected so far is well formed. -/
def Scope.Sound : Scope → Prop
  | .state _ _ fields => ∀ f ∈ fields, SoundField f.name f.type
  | .type name _ fields =>
    isName name.toList = true ∧ ∀ f ∈ fields, SoundField f.name f.type
  | _ => True

/-- A reading in which everything recorded or collected is well formed. -/
structure Reading.Sound (r : Reading) : Prop where
  outline : r.outline.Sound
  scopes : ∀ s ∈ r.scopes, s.Sound

/-! ## Clauses are never empty -/

/-- What is known of an agent has no empty values. -/
structure AgentClauses.Sound (c : AgentClauses) : Prop where
  description : ∀ text ∈ c.description, text ≠ ""
  version : ∀ text ∈ c.version, text ≠ ""
  model : ∀ m ∈ c.model, (∀ name ∈ m.name, name ≠ "") ∧ ∀ provider ∈ m.provider, provider ≠ ""

lemma ne_empty_or {key : String} {line : List Char} {known : Option String}
    (h : ∀ text ∈ known, text ≠ "") : ∀ text ∈ (clause? key line).or known, text ≠ "" := by
  intro text htext
  rcases Option.or_eq_some_iff.1 htext with hclause | ⟨-, hknown⟩
  · exact ne_empty_of_clause? hclause
  · exact h text hknown

lemma AgentClauses.Sound.add {known : AgentClauses} (h : known.Sound) (line : List Char) :
    (known.add line).Sound := by
  refine ⟨ne_empty_or h.description, ne_empty_or h.version, ?_⟩
  have hbefore : (∀ name ∈ (known.model.getD {}).name, name ≠ "") ∧
      ∀ provider ∈ (known.model.getD {}).provider, provider ≠ "" := by
    cases hmodel : known.model with
    | none => exact ⟨fun _ h => (by cases h), fun _ h => (by cases h)⟩
    | some m => exact h.model m hmodel
  intro m hm
  rw [AgentClauses.add, AgentClauses.modelWith] at hm
  split at hm
  · obtain rfl := Option.some.inj hm
    exact ⟨ne_empty_or hbefore.1, ne_empty_or hbefore.2⟩
  · exact h.model m hm

lemma sound_findAgentClauses {known : AgentClauses} (h : known.Sound) (depth : Int)
    (skipping : Option Int) (ls : List (List Char)) :
    (findAgentClauses depth skipping known ls).Sound := by
  induction ls generalizing depth skipping known with
  | nil => exact h
  | cons line later ih =>
    have hadd : (if (skipping.isNone && !(skipping.isNone && Header.starts line)) = true then
        known.add line else known).Sound := by
      split
      · exact h.add line
      · exact h
    unfold findAgentClauses
    split
    · exact h
    · dsimp only
      split
      · exact hadd
      · exact ih hadd _ _

lemma ne_empty_of_findToolDescription {ls : List (List Char)} :
    ∀ text ∈ findToolDescription ls, text ≠ "" := by
  induction ls with
  | nil => exact fun _ h => by cases h
  | cons line later ih =>
    intro text htext
    unfold findToolDescription at htext
    split at htext
    · cases htext
    · split at htext
      next hclause =>
        obtain rfl := Option.some.inj htext
        exact ne_empty_of_clause? hclause
      next =>
        split at htext
        · cases htext
        · exact ih text htext

lemma ne_empty_of_toolDescription {rest : List Char} {later : List (List Char)} :
    ∀ text ∈ toolDescription rest later, text ≠ "" := by
  intro text htext
  unfold toolDescription at htext
  split at htext
  next hclause =>
    obtain rfl := Option.some.inj htext
    exact ne_empty_of_clause? hclause
  next =>
    split at htext
    · cases htext
    · exact ne_empty_of_findToolDescription text htext

/-! ## Fields fit on a line -/

lemma mem_of_mem_piecesFrom {depth : Int} {cs piece : List Char} (h : piece ∈ piecesFrom depth cs) :
    ∀ c ∈ piece, c ∈ cs := by
  induction cs generalizing depth piece with
  | nil =>
    rw [piecesFrom, List.mem_singleton] at h
    rw [h]
    exact fun _ hc => hc
  | cons d cs ih =>
    intro c hc
    unfold piecesFrom at h
    split at h
    · rcases List.mem_cons.1 h with rfl | h
      · cases hc
      · exact List.mem_cons_of_mem d (ih h c hc)
    · split at h
      next =>
        rw [List.mem_singleton] at h
        rw [h, List.mem_singleton] at hc
        rw [hc]
        exact List.mem_cons_self
      next hpieces =>
        rcases List.mem_cons.1 h with rfl | h
        · rcases List.mem_cons.1 hc with rfl | hc
          · exact List.mem_cons_self
          · exact List.mem_cons_of_mem d (ih (hpieces ▸ List.mem_cons_self) c hc)
        · exact List.mem_cons_of_mem d (ih (hpieces ▸ List.mem_cons_of_mem _ h) c hc)

lemma HoldsField.newline_not_mem {segment piece : List Char} {name type : String}
    (hline : '\n' ∉ segment) (hpiece : piece ∈ pieces segment) (h : HoldsField piece name type) :
    '\n' ∉ type.toList := by
  obtain ⟨-, -, before, rest, -, rfl⟩ := h
  intro hmem
  refine hline (mem_of_mem_piecesFrom hpiece _ ?_)
  exact List.mem_append_right _ (List.mem_append_left _ hmem)

lemma Scope.Sound.collect {s : Scope} (h : s.Sound) {segment : List Char} (hline : '\n' ∉ segment) :
    (s.collect segment).Sound := by
  cases s with
  | agent _ _ => exact h
  | block _ => exact h
  | state owner place fields =>
    intro f hf
    rcases List.mem_append.1 hf with hf | hf
    · exact h f hf
    · obtain ⟨piece, hpiece, hholds⟩ := exists_piece_of_mem_stateFields hf
      exact ⟨writable_of_mem_stateFields hf, hholds.newline_not_mem hline hpiece⟩
  | type name place fields =>
    refine ⟨h.1, fun f hf => ?_⟩
    rcases List.mem_append.1 hf with hf | hf
    · exact h.2 f hf
    · obtain ⟨piece, hpiece, hholds⟩ := exists_piece_of_mem_typeFields hf
      exact ⟨writable_of_mem_typeFields hf, hholds.newline_not_mem hline hpiece⟩

/-! ## Opening and closing -/

namespace Reading

variable {r : Reading} {n : Nat} {text : List Char} {later : List (List Char)}

lemma Sound.report (h : r.Sound) (line : Nat) (cause : Cause) : (r.report line cause).Sound :=
  ⟨⟨h.outline.agents, h.outline.tools, h.outline.events, h.outline.states, h.outline.types⟩,
    h.scopes⟩

lemma Sound.push (h : r.Sound) {s : Scope} (hs : s.Sound) : (r.push s).Sound :=
  ⟨⟨h.outline.agents, h.outline.tools, h.outline.events, h.outline.states, h.outline.types⟩,
    List.forall_mem_cons.2 ⟨hs, h.scopes⟩⟩

lemma Sound.reportIf (h : r.Sound) (b : Bool) (line : Nat) (cause : Cause) :
    (if b then r.report line cause else r).Sound := by
  split
  · exact h.report line cause
  · exact h

lemma forall_mem_snoc {α : Type} {p : α → Prop} {xs : List α} (h : ∀ x ∈ xs, p x) {y : α}
    (hy : p y) : ∀ x ∈ xs ++ [y], p x := by
  intro x hx
  rcases List.mem_append.1 hx with hx | hx
  · exact h x hx
  · rw [List.mem_singleton.1 hx]
    exact hy

lemma Sound.openAgent (h : r.Sound) (place : Place) {name : String} {clauses : AgentClauses}
    (hname : isName name.toList = true) (hclauses : clauses.Sound) :
    (r.openAgent place name clauses).Sound := by
  have hr := h.reportIf (r.agents.any (·.name == name)) place.line (.agentAgain name)
  have hagent : AgentDecl.Sound
      ⟨name, clauses.description, clauses.version, clauses.model, place⟩ :=
    ⟨hname, hclauses.description, hclauses.version, hclauses.model⟩
  exact ⟨⟨forall_mem_snoc hr.outline.agents hagent, hr.outline.tools, hr.outline.events,
    hr.outline.states, hr.outline.types⟩, List.forall_mem_cons.2 ⟨trivial, hr.scopes⟩⟩

lemma Sound.openTool (h : r.Sound) (place : Place) {name params : String}
    {returns description : Option String} (hheader : (Header.tool name params returns).WellFormed)
    (hdescription : ∀ text ∈ description, text ≠ "") :
    (r.openTool place name params returns description).Sound := by
  obtain ⟨hname, hparams, hreturns⟩ := hheader
  cases hagent : r.agent? with
  | none =>
    simp only [Reading.openTool, hagent]
    exact (h.report place.line _).push trivial
  | some agent =>
    have hr := h.reportIf (r.tools.any (fun t => t.agent == agent && t.name == name)) place.line
      (.memberAgain agent .tool name)
    have htool : ToolDecl.Sound ⟨name, params, returns, description, agent, place⟩ :=
      ⟨hname, hparams, hreturns, hdescription⟩
    simp only [Reading.openTool, hagent]
    exact ⟨⟨hr.outline.agents, forall_mem_snoc hr.outline.tools htool, hr.outline.events,
      hr.outline.states, hr.outline.types⟩, List.forall_mem_cons.2 ⟨trivial, hr.scopes⟩⟩

lemma Sound.openEvent (h : r.Sound) (place : Place) {name : String}
    (hname : isName name.toList = true) : (r.openEvent place name).Sound := by
  cases hagent : r.agent? with
  | none =>
    simp only [Reading.openEvent, hagent]
    exact (h.report place.line _).push trivial
  | some agent =>
    have hr := h.reportIf (r.events.any (fun e => e.agent == agent && e.name == name)) place.line
      (.memberAgain agent .event name)
    have hevent : EventDecl.Sound ⟨name, .ofName name, agent, place⟩ := ⟨hname, rfl⟩
    simp only [Reading.openEvent, hagent]
    exact ⟨⟨hr.outline.agents, hr.outline.tools, forall_mem_snoc hr.outline.events hevent,
      hr.outline.states, hr.outline.types⟩, List.forall_mem_cons.2 ⟨trivial, hr.scopes⟩⟩

lemma Sound.openOne (h : r.Sound) {o : Opening} (ho : o.header.WellFormed) :
    (r.openOne n later o).Sound := by
  have hnone : AgentClauses.Sound {} :=
    ⟨fun _ h => (by cases h), fun _ h => (by cases h), fun _ h => (by cases h)⟩
  rw [Reading.openOne]
  obtain ⟨header, column, rest⟩ := o
  cases header with
  | agent name => exact h.openAgent _ ho (sound_findAgentClauses hnone _ _ _)
  | tool name params returns => exact h.openTool _ ho ne_empty_of_toolDescription
  | event name => exact h.openEvent _ ho
  | state =>
    dsimp only [Reading.openState]
    exact (h.reportIf _ _ _).push fun _ hf => absurd hf List.not_mem_nil
  | type name => exact h.push ⟨ho, fun _ hf => absurd hf List.not_mem_nil⟩

lemma Sound.record (h : r.Sound) (line : Nat) {s : Scope} (hs : s.Sound) :
    (r.record line s).Sound := by
  match s with
  | .agent _ _ => exact h
  | .block _ => exact h
  | .state none _ _ => exact h
  | .type name place fields =>
    exact ⟨⟨h.outline.agents, h.outline.tools, h.outline.events, h.outline.states,
      forall_mem_snoc h.outline.types hs⟩, h.scopes⟩
  | .state (some agent) place fields =>
    have hr := h.reportIf (r.states.any (·.agent == agent)) line (.stateAgain agent)
    exact ⟨⟨hr.outline.agents, hr.outline.tools, hr.outline.events,
      forall_mem_snoc hr.outline.states hs, hr.outline.types⟩, hr.scopes⟩

lemma Sound.setScopes (h : r.Sound) {scopes : List Scope} (hscopes : ∀ s ∈ scopes, s.Sound) :
    Sound { r with scopes } :=
  ⟨⟨h.outline.agents, h.outline.tools, h.outline.events, h.outline.states, h.outline.types⟩, hscopes⟩

lemma Sound.close (h : r.Sound) (line : Nat) : (r.close line).Sound := by
  rw [Reading.close]
  cases hscopes : r.scopes with
  | nil => exact h.report line .strayBrace
  | cons s outer =>
    have hall := h.scopes
    rw [hscopes] at hall
    obtain ⟨hs, houter⟩ := List.forall_mem_cons.1 hall
    exact (h.setScopes houter).record line hs

lemma Sound.collect (h : r.Sound) {segment : List Char} (hline : '\n' ∉ segment) :
    (r.collect segment).Sound := by
  rw [Reading.collect]
  cases hscopes : r.scopes with
  | nil => exact h
  | cons s outer =>
    have hall := h.scopes
    rw [hscopes] at hall
    obtain ⟨hs, houter⟩ := List.forall_mem_cons.1 hall
    exact h.setScopes (List.forall_mem_cons.2 ⟨hs.collect hline, houter⟩)

/-! ## Lines -/

lemma Sound.body (h : r.Sound) {segment cs : List Char} (hsegment : '\n' ∉ segment)
    (hcs : '\n' ∉ cs) : (body n segment cs r).Sound := by
  induction cs generalizing segment r with
  | nil => exact h.collect hsegment
  | cons c cs ih =>
    rw [List.mem_cons, not_or] at hcs
    unfold Reading.body
    split
    · have hblock : (Scope.block n).Sound := trivial
      exact ih ((h.collect hsegment).push hblock) List.not_mem_nil hcs.2
    · split
      · exact ih ((h.collect hsegment).close n) List.not_mem_nil hcs.2
      · refine ih h ?_ hcs.2
        rw [List.mem_append, List.mem_singleton]
        exact not_or.2 ⟨hsegment, hcs.1⟩

lemma newline_not_mem_bodyText {opened : List Opening} (hline : '\n' ∉ text)
    (hopened : ∀ o ∈ opened, o.rest <:+ text) : '\n' ∉ bodyText text opened := by
  have hrest : (opened.getLast?.map (·.rest)).getD text <:+ text := by
    cases hlast : opened.getLast? with
    | none => exact List.suffix_rfl
    | some o => exact hopened o (List.mem_of_getLast? hlast)
  intro hmem
  rcases mem_mask hmem with hspace | hmem
  · cases hspace
  · exact hline (hrest.subset hmem)

/-- Reading a line keeps a reading sound. -/
theorem Sound.line (h : r.Sound) (hline : '\n' ∉ text) : (r.line n text later).Sound := by
  have hopened : ∀ o ∈ (if r.inFields then [] else openings text),
      o.header.WellFormed ∧ o.rest <:+ text := by
    split
    · exact fun _ ho => absurd ho List.not_mem_nil
    · exact fun o ho => ⟨wellFormed_of_mem_openingsFrom 0 text hline o ho,
        suffix_of_mem_openingsFrom 0 text o ho⟩
  have hfold : ∀ os : List Opening, (∀ o ∈ os, o.header.WellFormed) →
      (os.foldl (Reading.openOne n later) r).Sound := by
    intro os hos
    exact List.foldlRecOn os _ h fun r hr o ho => hr.openOne (hos o ho)
  rw [Reading.line]
  refine Sound.body (hfold _ fun o ho => (hopened o ho).1) List.not_mem_nil ?_
  exact newline_not_mem_bodyText hline fun o ho => (hopened o ho).2

lemma Sound.linesFrom (h : r.Sound) {ls : List (List Char)} (hls : ∀ l ∈ ls, '\n' ∉ l) :
    (Reading.linesFrom n ls r).Sound := by
  induction ls generalizing n r with
  | nil => exact h
  | cons l ls ih =>
    rw [Reading.linesFrom]
    exact ih (h.line (hls l List.mem_cons_self)) fun l' hl' => hls l' (List.mem_cons_of_mem l hl')

lemma Sound.finish (h : r.Sound) (lineCount : Nat) : (r.finish lineCount).Sound := by
  have hempty : ({ r with scopes := [] } : Reading).Sound :=
    h.setScopes fun _ hs => absurd hs List.not_mem_nil
  exact List.foldlRecOn r.scopes _ hempty fun r hr s hs =>
    (hr.report _ _).record lineCount (h.scopes s hs)

end Reading

/-- **Every outline is sound**, whatever the text. -/
theorem sound_outline (text : String) : (outline text).Sound := by
  have hempty : Reading.Sound {} :=
    ⟨⟨fun _ h => absurd h List.not_mem_nil, fun _ h => absurd h List.not_mem_nil,
      fun _ h => absurd h List.not_mem_nil, fun _ h => absurd h List.not_mem_nil,
      fun _ h => absurd h List.not_mem_nil⟩, fun _ h => absurd h List.not_mem_nil⟩
  have hlines : ∀ l ∈ scriptLines text, '\n' ∉ l := fun l hl => newline_not_mem_of_mem_lines hl
  exact ((hempty.linesFrom hlines).finish _).outline

end Script

end AgentScript
