import AgentScript.Script.Reading
import Mathlib.Tactic.Common

/-!
# What a step adds

Every step of reading adds to what there is: a header opens a scope and declares something
(`openOne_eq`), closing a scope records what it has collected (`record_eq`), and either may note that
something was declared before.  What is added is a reading of its own.  It depends on the scopes
around it and on the text, and on nothing that was recorded before; only the notes do
(`Reading.repeats`, `Reading.repeatsState`).

What is kept by every step is kept by body text and by any number of lines, which is shown once for
all (`body_induction`, `linesFrom_induction`).
-/

namespace AgentScript.Script

open AgentScript.Text

/-- The name of the agent a state block is recorded for. -/
def Scope.owner? : Scope → Option String
  | .state owner _ _ => owner
  | _ => none

namespace Reading

/-- What a second reading adds to a first one, its scopes within those of the first. -/
def append (r d : Reading) : Reading where
  scopes := d.scopes ++ r.scopes
  agents := r.agents ++ d.agents
  tools := r.tools ++ d.tools
  events := r.events ++ d.events
  states := r.states ++ d.states
  types := r.types ++ d.types
  findings := r.findings ++ d.findings

instance : Append Reading := ⟨append⟩

/-- The reading with a finding more, if there is a cause for one. -/
def note (r : Reading) (line : Nat) (cause? : Option Cause) : Reading :=
  { r with findings := r.findings ++ (cause?.map (⟨line, ·⟩)).toList }

section Fields

variable (r d : Reading) (line : Nat) (cause? : Option Cause)

@[simp] lemma scopes_append : (r ++ d).scopes = d.scopes ++ r.scopes := rfl
@[simp] lemma agents_append : (r ++ d).agents = r.agents ++ d.agents := rfl
@[simp] lemma tools_append : (r ++ d).tools = r.tools ++ d.tools := rfl
@[simp] lemma events_append : (r ++ d).events = r.events ++ d.events := rfl
@[simp] lemma states_append : (r ++ d).states = r.states ++ d.states := rfl
@[simp] lemma types_append : (r ++ d).types = r.types ++ d.types := rfl
@[simp] lemma findings_append : (r ++ d).findings = r.findings ++ d.findings := rfl

@[simp] lemma scopes_note : (r.note line cause?).scopes = r.scopes := rfl
@[simp] lemma agents_note : (r.note line cause?).agents = r.agents := rfl
@[simp] lemma tools_note : (r.note line cause?).tools = r.tools := rfl
@[simp] lemma events_note : (r.note line cause?).events = r.events := rfl
@[simp] lemma states_note : (r.note line cause?).states = r.states := rfl
@[simp] lemma types_note : (r.note line cause?).types = r.types := rfl
@[simp] lemma findings_note :
    (r.note line cause?).findings = r.findings ++ (cause?.map (⟨line, ·⟩)).toList := rfl

end Fields

@[ext] lemma ext_fields {r r' : Reading} (scopes : r.scopes = r'.scopes)
    (agents : r.agents = r'.agents) (tools : r.tools = r'.tools) (events : r.events = r'.events)
    (states : r.states = r'.states) (types : r.types = r'.types)
    (findings : r.findings = r'.findings) : r = r' := by
  cases r
  cases r'
  simp_all

/-! ## Headers -/

/-- What is wrong with a header because of what was declared before, if the given agent is around
it. -/
def repeats (r : Reading) (agent? : Option String) : Header → Option Cause
  | .agent name => if r.agents.any (·.name == name) then some (.agentAgain name) else none
  | .tool name _ _ => agent?.bind fun agent =>
    if r.tools.any (fun t => t.agent == agent && t.name == name) then
      some (.memberAgain agent .tool name)
    else none
  | .event name => agent?.bind fun agent =>
    if r.events.any (fun e => e.agent == agent && e.name == name) then
      some (.memberAgain agent .event name)
    else none
  | _ => none

/-- What a header of the given line adds, if the given agent is around it; `later` holds the lines
after it. -/
def opened (agent? : Option String) (line : Nat) (later : List (List Char)) (o : Opening) :
    Reading :=
  let place : Place := ⟨line, o.column⟩
  match o.header, agent? with
  | .agent name, _ =>
    let clauses := agentClauses o.rest later
    { scopes := [.agent name line]
      agents := [⟨name, clauses.description, clauses.version, clauses.model, place⟩] }
  | .tool name params returns, some agent =>
    { scopes := [.block line]
      tools := [⟨name, params, returns, toolDescription o.rest later, agent, place⟩] }
  | .tool name _ _, none => { scopes := [.block line], findings := [⟨line, .toolOutside name⟩] }
  | .event name, some agent =>
    { scopes := [.block line], events := [⟨name, .ofName name, agent, place⟩] }
  | .event name, none => { scopes := [.block line], findings := [⟨line, .eventOutside name⟩] }
  | .state, some agent => { scopes := [.state (some agent) place []] }
  | .state, none => { scopes := [.state none place []], findings := [⟨line, .stateOutside⟩] }
  | .type name, _ => { scopes := [.type name place []] }

variable {line : Nat} {later : List (List Char)}

/-- **What a header does**: it may be noted as declared before, and it adds its scope and what it
declares. -/
theorem openOne_eq (r : Reading) (o : Opening) :
    r.openOne line later o =
      r.note line (r.repeats r.agent? o.header) ++ opened r.agent? line later o := by
  obtain ⟨header, column, rest⟩ := o
  cases header with
  | agent name =>
    simp only [openOne, openAgent, repeats, opened]
    split <;> (ext : 1 <;> simp [report])
  | tool name params returns =>
    simp only [openOne, openTool, repeats, opened]
    cases r.agent? with
    | none => ext : 1 <;> simp [report, push]
    | some agent =>
      dsimp only [Option.bind_some]
      split <;> (ext : 1 <;> simp [report])
  | event name =>
    simp only [openOne, openEvent, repeats, opened]
    cases r.agent? with
    | none => ext : 1 <;> simp [report, push]
    | some agent =>
      dsimp only [Option.bind_some]
      split <;> (ext : 1 <;> simp [report])
  | state =>
    simp only [openOne, openState, repeats, opened]
    cases r.agent? <;> (ext : 1 <;> simp [report, push])
  | type name =>
    simp only [openOne, repeats, opened]
    ext : 1 <;> simp [push]

/-! ## Closing -/

/-- What is wrong with closing a scope because of what was recorded before. -/
def repeatsState (r : Reading) (scope : Scope) : Option Cause :=
  scope.owner?.bind fun agent =>
    if r.states.any (·.agent == agent) then some (.stateAgain agent) else none

/-- What closing a scope records. -/
def kept : Scope → Reading
  | .state (some agent) place fields => { states := [⟨agent, fields, place⟩] }
  | .type name place fields => { types := [⟨name, fields, place⟩] }
  | _ => {}

@[simp] lemma scopes_kept (scope : Scope) : (kept scope).scopes = [] := by
  unfold kept
  split <;> rfl

lemma agents_kept (scope : Scope) : (kept scope).agents = [] := by
  unfold kept
  split <;> rfl

@[simp] lemma findings_kept (scope : Scope) : (kept scope).findings = [] := by
  unfold kept
  split <;> rfl

/-- **What closing a scope does**: it may be noted as recorded before, and what it has collected is
recorded. -/
theorem record_eq (r : Reading) (scope : Scope) :
    r.record line scope = r.note line (r.repeatsState scope) ++ kept scope := by
  match scope with
  | .agent _ _ => ext : 1 <;> simp [record, repeatsState, Scope.owner?, kept]
  | .block _ => ext : 1 <;> simp [record, repeatsState, Scope.owner?, kept]
  | .state none _ _ => ext : 1 <;> simp [record, repeatsState, Scope.owner?, kept]
  | .type _ _ _ => ext : 1 <;> simp [record, repeatsState, Scope.owner?, kept]
  | .state (some agent) place fields =>
    simp only [record, repeatsState, Scope.owner?, Option.bind_some, kept]
    split <;> (ext : 1 <;> simp [report])

/-- The reading without its innermost scope. -/
def pop (r : Reading) : Reading := { r with scopes := r.scopes.tail }

lemma close_eq_of_cons {r : Reading} {scope : Scope} {outer : List Scope}
    (h : r.scopes = scope :: outer) :
    r.close line = r.pop.note line (r.repeatsState scope) ++ kept scope := by
  have hpop : { r with scopes := outer } = r.pop := by rw [pop, h, List.tail_cons]
  rw [close, h]
  dsimp only
  rw [hpop, record_eq]
  rfl

lemma close_eq_of_nil {r : Reading} (h : r.scopes = []) :
    r.close line = r.note line (some .strayBrace) := by
  rw [close, h]
  rfl

/-! ## Step after step -/

/-- What is kept when text is collected, a block is opened and a scope is closed is kept by body
text. -/
theorem body_induction {P : Reading → Prop}
    (hcollect : ∀ r segment, P r → P (r.collect segment))
    (hblock : ∀ r, P r → P (r.push (.block line))) (hclose : ∀ r, P r → P (r.close line))
    {r : Reading} (h : P r) (segment cs : List Char) : P (body line segment cs r) := by
  induction cs generalizing r segment with
  | nil => exact hcollect r segment h
  | cons c cs ih =>
    have hcollected := hcollect r segment h
    rw [body]
    split_ifs
    · exact ih (hblock _ hcollected) []
    · exact ih (hclose _ hcollected) []
    · exact ih h _

/-- What every line keeps is kept by any number of lines. -/
theorem linesFrom_induction {P : Reading → Prop}
    (hline : ∀ r number text later, P r → P (r.line number text later)) {r : Reading} (h : P r)
    (number : Nat) (ls : List (List Char)) : P (linesFrom number ls r) := by
  induction ls generalizing r number with
  | nil => exact h
  | cons text later ih =>
    rw [linesFrom]
    exact ih (hline r number text later h) (number + 1)

/-! ## The end of the text -/

/-- Closes one scope that is still open at the end of a text of so many lines. -/
def finishOne (lineCount : Nat) (r : Reading) (scope : Scope) : Reading :=
  (r.note scope.line (some (.neverClosed scope.opener scope.line))).note lineCount
    (r.repeatsState scope) ++ kept scope

/-- At the end, the scopes that are still open are closed one by one. -/
lemma finish_eq (r : Reading) (lineCount : Nat) :
    r.finish lineCount = r.scopes.foldl (finishOne lineCount) { r with scopes := [] } := by
  have hone : (fun (r : Reading) scope =>
      (r.report scope.line (.neverClosed scope.opener scope.line)).record lineCount scope) =
      finishOne lineCount := by
    funext r scope
    rw [record_eq]
    rfl
  rw [finish, hone]

end Reading

end AgentScript.Script
