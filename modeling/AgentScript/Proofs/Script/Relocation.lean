import AgentScript.Proofs.Script.Steps
import Mathlib.Data.List.Perm.Basic

/-!
# Reading further down

Where a script stands behind another one, whose scopes are all closed, its lines are read as they are
read alone, further down: every declaration is the same at a later line, and so is every finding.
What is recorded already is only looked at for names that are declared again, so that further
findings are about names that both scripts declare (`Cause.IsShared`).

`Reading.Behind` relates the reading of a script alone to the reading of it behind another one, and
every step keeps it, up to the end of the text (`Reading.Behind.finish`).
-/

namespace AgentScript

/-! ## Further down -/

/-- The place so many lines further down. -/
def Place.down (n : Nat) (p : Place) : Place := { p with line := p.line + n }

def AgentDecl.down (n : Nat) (d : AgentDecl) : AgentDecl := { d with place := d.place.down n }

def ToolDecl.down (n : Nat) (d : ToolDecl) : ToolDecl := { d with place := d.place.down n }

def EventDecl.down (n : Nat) (d : EventDecl) : EventDecl := { d with place := d.place.down n }

def StateDecl.down (n : Nat) (d : StateDecl) : StateDecl := { d with place := d.place.down n }

def TypeDecl.down (n : Nat) (d : TypeDecl) : TypeDecl := { d with place := d.place.down n }

namespace Script

/-- The cause so many lines further down: that a brace is never closed is said with its line. -/
def Cause.down (n : Nat) : Cause → Cause
  | .neverClosed opener line => .neverClosed opener (line + n)
  | cause => cause

def Finding.down (n : Nat) (f : Finding) : Finding := ⟨f.line + n, f.cause.down n⟩

def Scope.down (n : Nat) : Scope → Scope
  | .agent name line => .agent name (line + n)
  | .state owner place fields => .state owner (place.down n) fields
  | .type name place fields => .type name (place.down n) fields
  | .block line => .block (line + n)

/-- Whether the cause is a name that both outlines declare. -/
def Cause.IsShared (o o' : Outline) : Cause → Prop
  | .agentAgain name => name ∈ o.agents.map (·.name) ∧ name ∈ o'.agents.map (·.name)
  | .memberAgain agent .tool name =>
    (agent, name) ∈ o.tools.map (fun d => (d.agent, d.name)) ∧
      (agent, name) ∈ o'.tools.map (fun d => (d.agent, d.name))
  | .memberAgain agent .event name =>
    (agent, name) ∈ o.events.map (fun d => (d.agent, d.name)) ∧
      (agent, name) ∈ o'.events.map (fun d => (d.agent, d.name))
  | .stateAgain agent => agent ∈ o.states.map (·.agent) ∧ agent ∈ o'.states.map (·.agent)
  | _ => False

lemma Cause.IsShared.severity {o o' : Outline} {cause : Cause} (h : cause.IsShared o o') :
    cause.severity = .warning := by
  cases cause <;> first | rfl | exact h.elim

lemma holdsFields_down (n : Nat) (scope : Scope) :
    (scope.down n).holdsFields = scope.holdsFields := by
  cases scope <;> rfl

lemma agentName?_down (n : Nat) (scope : Scope) : (scope.down n).agentName? = scope.agentName? := by
  cases scope <;> rfl

lemma owner?_down (n : Nat) (scope : Scope) : (scope.down n).owner? = scope.owner? := by
  cases scope <;> rfl

lemma collect_down (n : Nat) (scope : Scope) (segment : List Char) :
    (scope.down n).collect segment = (scope.collect segment).down n := by
  cases scope <;> rfl

namespace Reading

/-- The reading so many lines further down. -/
def down (n : Nat) (r : Reading) : Reading where
  scopes := r.scopes.map (Scope.down n)
  agents := r.agents.map (AgentDecl.down n)
  tools := r.tools.map (ToolDecl.down n)
  events := r.events.map (EventDecl.down n)
  states := r.states.map (StateDecl.down n)
  types := r.types.map (TypeDecl.down n)
  findings := r.findings.map (Finding.down n)

/-- What a header adds is the same further down. -/
lemma opened_down (n : Nat) (agent? : Option String) (line : Nat) (later : List (List Char))
    (o : Opening) : opened agent? (line + n) later o = (opened agent? line later o).down n := by
  obtain ⟨header, column, rest⟩ := o
  cases header <;> cases agent? <;> rfl

lemma kept_down (n : Nat) (scope : Scope) : kept (scope.down n) = (kept scope).down n := by
  match scope with
  | .agent _ _ => rfl
  | .block _ => rfl
  | .state none _ _ => rfl
  | .state (some _) _ _ => rfl
  | .type _ _ _ => rfl

/-! ## One script behind another -/

/-- The second reading is the first one further down, behind what is recorded already, apart from
findings about names that are declared in both. -/
structure Behind (before : Reading) (n : Nat) (r r' : Reading) : Prop where
  scopes : r'.scopes = (r.down n).scopes
  agents : r'.agents = before.agents ++ (r.down n).agents
  tools : r'.tools = before.tools ++ (r.down n).tools
  events : r'.events = before.events ++ (r.down n).events
  states : r'.states = before.states ++ (r.down n).states
  types : r'.types = before.types ++ (r.down n).types
  findings : ∃ further : List Finding,
    r'.findings.Perm (before.findings ++ (r.down n).findings ++ further) ∧
      ∀ f ∈ further, f.cause.IsShared before.outline r.outline

variable {before r r' d : Reading} {n line : Nat} {cause? cause'? : Option Cause}

lemma behind_nil (h : before.scopes = []) (n : Nat) : Behind before n {} before :=
  ⟨h, by simp [down], by simp [down], by simp [down], by simp [down], by simp [down],
    [], by simp [down], by simp⟩

/-- What is shared with a reading is shared with a later one. -/
lemma isShared_append {o : Outline} {cause : Cause} (h : cause.IsShared o r.outline) :
    cause.IsShared o (r ++ d).outline := by
  unfold Cause.IsShared at *
  split at h <;> simp_all [outline]

/-- A step that adds the same further down, and notes the same or a name that is declared in both. -/
lemma Behind.add (h : Behind before n r r') (line : Nat) (d : Reading)
    (hcause : cause'? = cause?.map (Cause.down n) ∨
      cause? = none ∧ ∃ cause, cause'? = some cause ∧ cause.IsShared before.outline (r ++ d).outline) :
    Behind before n (r.note line cause? ++ d) (r'.note (line + n) cause'? ++ d.down n) := by
  obtain ⟨further, hperm, hshared⟩ := h.findings
  refine ⟨?_, ?_, ?_, ?_, ?_, ?_, ?_⟩
  · simp [down, h.scopes]
  · simp [down, h.agents]
  · simp [down, h.tools]
  · simp [down, h.events]
  · simp [down, h.states]
  · simp [down, h.types]
  · have hlater : ∀ f ∈ further,
        f.cause.IsShared before.outline (r.note line cause? ++ d).outline := fun f hf =>
      isShared_append (hshared f hf)
    rw [List.perm_iff_count] at hperm
    rcases hcause with rfl | ⟨rfl, cause, rfl, hcause⟩
    · refine ⟨further, ?_, hlater⟩
      rw [List.perm_iff_count]
      intro f
      have hf := hperm f
      simp only [down, findings_append, findings_note, List.map_append, List.count_append] at hf ⊢
      cases cause? with
      | none => simp; omega
      | some cause =>
        simp [Finding.down]
        omega
    · refine ⟨⟨line + n, cause⟩ :: further, ?_, List.forall_mem_cons.2 ⟨hcause, hlater⟩⟩
      rw [List.perm_iff_count]
      intro f
      have hf := hperm f
      simp only [down, findings_append, findings_note, List.map_append, List.count_append,
        List.count_cons] at hf ⊢
      simp [List.count_cons]
      omega

lemma Behind.note (h : Behind before n r r') (line : Nat) (cause? : Option Cause) :
    Behind before n (r.note line cause?) (r'.note (line + n) (cause?.map (Cause.down n))) := by
  have hempty : ∀ r : Reading, r ++ {} = r := by
    intro r
    ext : 1 <;> simp
  have hnote := h.add line {} (.inl (rfl : cause?.map (Cause.down n) = _))
  have hdown : ({} : Reading).down n = {} := rfl
  rwa [hdown, hempty, hempty] at hnote

/-- What is noted because of an earlier declaration is noted for the declarations of both. -/
lemma noted_or {o o' : Outline} {cause : Cause} {p q : Bool} (hdown : cause.down n = cause)
    (hshared : p = true → cause.IsShared o o') :
    (if (p || q) = true then some cause else none) =
        (if q = true then some cause else none).map (Cause.down n) ∨
      (if q = true then some cause else none) = none ∧
        ∃ c, (if (p || q) = true then some cause else none) = some c ∧ c.IsShared o o' := by
  cases q with
  | true => simp [hdown]
  | false =>
    cases p with
    | true => exact .inr ⟨rfl, cause, rfl, hshared rfl⟩
    | false => exact .inl rfl

lemma Behind.repeats (h : Behind before n r r') (agent? : Option String) (line : Nat)
    (later : List (List Char)) (o : Opening) :
    r'.repeats agent? o.header = (r.repeats agent? o.header).map (Cause.down n) ∨
      r.repeats agent? o.header = none ∧ ∃ cause, r'.repeats agent? o.header = some cause ∧
        cause.IsShared before.outline (r ++ opened agent? line later o).outline := by
  obtain ⟨header, column, rest⟩ := o
  cases header with
  | agent name =>
    simp only [Reading.repeats, h.agents, down, List.any_append, List.any_map]
    refine noted_or rfl fun hany => ⟨?_, by simp [outline, opened]⟩
    simpa [outline] using hany
  | tool name params returns =>
    cases agent? with
    | none => exact .inl rfl
    | some agent =>
      simp only [Reading.repeats, Option.bind_some, h.tools, down, List.any_append, List.any_map]
      refine noted_or rfl fun hany => ⟨?_, by simp [outline, opened]⟩
      simpa [outline] using hany
  | event name =>
    cases agent? with
    | none => exact .inl rfl
    | some agent =>
      simp only [Reading.repeats, Option.bind_some, h.events, down, List.any_append, List.any_map]
      refine noted_or rfl fun hany => ⟨?_, by simp [outline, opened]⟩
      simpa [outline] using hany
  | state => exact .inl rfl
  | type name => exact .inl rfl

lemma Behind.repeatsState (h : Behind before n r r') (scope : Scope) :
    r'.repeatsState (scope.down n) = (r.repeatsState scope).map (Cause.down n) ∨
      r.repeatsState scope = none ∧ ∃ cause, r'.repeatsState (scope.down n) = some cause ∧
        cause.IsShared before.outline (r ++ kept scope).outline := by
  rw [Reading.repeatsState, Reading.repeatsState, owner?_down]
  cases scope with
  | agent => exact .inl rfl
  | block => exact .inl rfl
  | type => exact .inl rfl
  | state owner? place fields =>
    cases owner? with
    | none => exact .inl rfl
    | some agent =>
      simp only [Scope.owner?, Option.bind_some, h.states, down, List.any_append, List.any_map]
      refine noted_or rfl fun hany => ⟨?_, by simp [outline, kept]⟩
      simpa [outline] using hany

lemma Behind.agent?_eq (h : Behind before n r r') : r'.agent? = r.agent? := by
  rw [agent?, agent?, h.scopes, innermostAgent?, innermostAgent?, down, List.findSome?_map]
  congr 1
  funext scope
  exact agentName?_down n scope

lemma Behind.inFields_eq (h : Behind before n r r') : r'.inFields = r.inFields := by
  rw [inFields, inFields, h.scopes, down, List.head?_map, Option.map_map]
  congr 2
  funext scope
  exact holdsFields_down n scope

/-- Scopes may change, if they change alike. -/
lemma Behind.withScopes (h : Behind before n r r') (scopes : List Scope) :
    Behind before n { r with scopes } { r' with scopes := scopes.map (Scope.down n) } :=
  ⟨rfl, h.agents, h.tools, h.events, h.states, h.types, h.findings⟩

/-! ## Step by step -/

lemma Behind.push (h : Behind before n r r') (line : Nat) :
    Behind before n (r.push (.block line)) (r'.push (.block (line + n))) := by
  rw [Reading.push, Reading.push, h.scopes]
  exact h.withScopes (.block line :: r.scopes)

lemma Behind.openOne (h : Behind before n r r') (line : Nat) (later : List (List Char))
    (o : Opening) :
    Behind before n (r.openOne line later o) (r'.openOne (line + n) later o) := by
  rw [openOne_eq, openOne_eq, h.agent?_eq, opened_down]
  exact h.add line _ (h.repeats r.agent? line later o)

lemma Behind.foldl_openOne (line : Nat) (later : List (List Char)) (os : List Opening)
    (h : Behind before n r r') :
    Behind before n (os.foldl (Reading.openOne line later) r)
      (os.foldl (Reading.openOne (line + n) later) r') := by
  induction os generalizing r r' with
  | nil => exact h
  | cons o os ih => exact ih (h.openOne line later o)

lemma Behind.collect (h : Behind before n r r') (segment : List Char) :
    Behind before n (r.collect segment) (r'.collect segment) := by
  have hscopes := h.scopes
  rw [Reading.collect, Reading.collect, hscopes, down]
  cases hr : r.scopes with
  | nil => exact h
  | cons scope outer =>
    simp only [List.map_cons, collect_down]
    exact h.withScopes (scope.collect segment :: outer)

lemma Behind.pop (h : Behind before n r r') : Behind before n r.pop r'.pop := by
  have hpop := h.withScopes r.scopes.tail
  rw [List.map_tail] at hpop
  rwa [Reading.pop, Reading.pop, h.scopes]

lemma Behind.close (h : Behind before n r r') (line : Nat) :
    Behind before n (r.close line) (r'.close (line + n)) := by
  have hscopes := h.scopes
  rw [down] at hscopes
  cases hr : r.scopes with
  | nil =>
    rw [hr] at hscopes
    rw [close_eq_of_nil hr, close_eq_of_nil hscopes]
    exact h.note line (some .strayBrace)
  | cons scope outer =>
    rw [hr] at hscopes
    rw [close_eq_of_cons hr, close_eq_of_cons hscopes, kept_down]
    exact h.pop.add line _ (h.pop.repeatsState scope)

lemma Behind.body (h : Behind before n r r') (line : Nat) (segment cs : List Char) :
    Behind before n (Reading.body line segment cs r) (Reading.body (line + n) segment cs r') := by
  induction cs generalizing r r' segment with
  | nil => exact h.collect segment
  | cons c cs ih =>
    rw [Reading.body, Reading.body]
    split_ifs
    · exact ih ((h.collect segment).push line) []
    · exact ih ((h.collect segment).close line) []
    · exact ih h _

lemma Behind.nextLine (h : Behind before n r r') (line : Nat) (text : List Char)
    (later : List (List Char)) :
    Behind before n (r.line line text later) (r'.line (line + n) text later) := by
  rw [Reading.line, Reading.line, h.inFields_eq]
  exact (h.foldl_openOne line later _).body line [] _

/-- **Some lines**: they are read as they are read alone. -/
theorem Behind.linesFrom (h : Behind before n r r') (line : Nat) (ls : List (List Char)) :
    Behind before n (Reading.linesFrom line ls r) (Reading.linesFrom (line + n) ls r') := by
  induction ls generalizing r r' line with
  | nil => exact h
  | cons text later ih =>
    rw [Reading.linesFrom, Reading.linesFrom, Nat.add_right_comm]
    exact ih (h.nextLine line text later) (line + 1)

lemma Behind.finishOne (h : Behind before n r r') (lineCount : Nat) (scope : Scope) :
    Behind before n (Reading.finishOne lineCount r scope)
      (Reading.finishOne (lineCount + n) r' (scope.down n)) := by
  have hnever : (scope.down n).line = scope.line + n ∧
      some (Cause.neverClosed (scope.down n).opener (scope.down n).line) =
        (some (Cause.neverClosed scope.opener scope.line)).map (Cause.down n) := by
    cases scope <;> exact ⟨rfl, rfl⟩
  rw [Reading.finishOne, Reading.finishOne, kept_down, hnever.2, hnever.1]
  exact (h.note scope.line _).add lineCount _ ((h.note scope.line _).repeatsState scope)

/-- **The end of the text**: what is left open is closed alike. -/
theorem Behind.finish (h : Behind before n r r') (lineCount : Nat) :
    Behind before n (r.finish lineCount) (r'.finish (lineCount + n)) := by
  have hscopes : ∀ (scopes : List Scope) {r r' : Reading}, Behind before n r r' →
      Behind before n (scopes.foldl (Reading.finishOne lineCount) r)
        ((scopes.map (Scope.down n)).foldl (Reading.finishOne (lineCount + n)) r') := by
    intro scopes
    induction scopes with
    | nil => exact fun h => h
    | cons scope scopes ih => exact fun h => ih (h.finishOne lineCount scope)
  rw [finish_eq, finish_eq, h.scopes]
  exact hscopes r.scopes (h.withScopes [])

end Reading

end Script

end AgentScript
