import AgentScript.Proofs.Script.Headers
import AgentScript.Proofs.Script.Masking
import AgentScript.Script.Reading

/-!
# What a line adds to a reading

Reading only ever adds: declarations to the lists, findings behind the findings.  `Grows r r' o` says
that the declarations of `o` were added on the way from `r` to `r'`, wherever in the text they stood,
and that nothing was found on the way but warnings, and among these only members that are declared
again, provided that agents and state blocks turn out to be told apart by their names.

The second half of the module says what the six kinds of line do that a canonical script consists
of: lines that say nothing here, headers, lines that only open a brace, lines of a field, and lines
that only close one.
-/

namespace AgentScript

/-! ## Declarations without their places -/

def AgentDecl.unplaced (d : AgentDecl) : AgentDecl := { d with place := default }

def ToolDecl.unplaced (d : ToolDecl) : ToolDecl := { d with place := default }

def EventDecl.unplaced (d : EventDecl) : EventDecl := { d with place := default }

def StateDecl.unplaced (d : StateDecl) : StateDecl := { d with place := default }

def TypeDecl.unplaced (d : TypeDecl) : TypeDecl := { d with place := default }

namespace Outline

/-- What an outline declares, wherever it was declared. -/
def unplaced (o : Outline) : Outline where
  agents := o.agents.map AgentDecl.unplaced
  tools := o.tools.map ToolDecl.unplaced
  events := o.events.map EventDecl.unplaced
  states := o.states.map StateDecl.unplaced
  types := o.types.map TypeDecl.unplaced

/-- The declarations of one outline after those of another. -/
def append (o o' : Outline) : Outline where
  agents := o.agents ++ o'.agents
  tools := o.tools ++ o'.tools
  events := o.events ++ o'.events
  states := o.states ++ o'.states
  types := o.types ++ o'.types
  diagnostics := o.diagnostics ++ o'.diagnostics

instance : Append Outline := ⟨append⟩

lemma append_eq (o o' : Outline) : o ++ o' =
    ⟨o.agents ++ o'.agents, o.tools ++ o'.tools, o.events ++ o'.events, o.states ++ o'.states,
      o.types ++ o'.types, o.diagnostics ++ o'.diagnostics⟩ := rfl

@[simp] lemma append_empty (o : Outline) : o ++ {} = o := by
  simp [append_eq]

@[simp] lemma empty_append (o : Outline) : {} ++ o = o := by
  simp [append_eq]

lemma append_assoc (o o' o'' : Outline) : o ++ o' ++ o'' = o ++ (o' ++ o'') := by
  simp [append_eq]

/-- The declarations of several outlines, one after the other. -/
def join (os : List Outline) : Outline := os.foldr (· ++ ·) {}

@[simp] lemma join_nil : join [] = {} := rfl

@[simp] lemma join_cons (o : Outline) (os : List Outline) : join (o :: os) = o ++ join os := rfl

end Outline

namespace Script

open AgentScript.Text

/-- Whether a finding is about a tool or an event handler that is declared again. -/
def Cause.isMemberAgain : Cause → Bool
  | .memberAgain _ _ _ => true
  | _ => false

namespace Reading

/-- Nothing was found but members that are declared again, if agents and state blocks are told apart
by their names. -/
def Clean (r : Reading) : Prop :=
  (r.agents.map (·.name)).Nodup → (r.states.map (·.agent)).Nodup →
    ∀ f ∈ r.findings, f.cause.isMemberAgain = true

/-- Nothing was found that is an error. -/
def Faultless (r : Reading) : Prop := ∀ f ∈ r.findings, f.cause.severity = .warning

/-- From one reading to a later one, these declarations were added. -/
structure Grows (r r' : Reading) (added : Outline) : Prop where
  unplaced : r'.outline.unplaced = r.outline.unplaced ++ added
  clean : r.Clean → r'.Clean
  faultless : r.Faultless → r'.Faultless

variable {r r' r'' : Reading} {o o' : Outline} {n : Nat} {text : List Char}
  {later : List (List Char)}

lemma Grows.trans (h : Grows r r' o) (h' : Grows r' r'' o') : Grows r r'' (o ++ o') := by
  refine ⟨?_, fun hclean => h'.clean (h.clean hclean), fun hfaultless => h'.faultless
    (h.faultless hfaultless)⟩
  rw [h'.unplaced, h.unplaced, Outline.append_assoc]

/-- Opening and closing scopes adds nothing by itself. -/
lemma grows_of_scopes (r : Reading) (scopes : List Scope) : Grows r { r with scopes } {} :=
  ⟨by rw [Outline.append_empty]; rfl, fun h => h, fun h => h⟩

lemma Grows.refl (r : Reading) : Grows r r {} := grows_of_scopes r r.scopes

/-! ## What opening and closing add -/

/-- A warning leaves a reading without errors. -/
lemma faultless_report (h : r.Faultless) {cause : Cause} (hcause : cause.severity = .warning)
    (line : Nat) : (r.report line cause).Faultless := by
  intro f hf
  rcases List.mem_append.1 hf with hf | hf
  · exact h f hf
  · rw [List.mem_singleton.1 hf]
    exact hcause

lemma grows_openAgent (r : Reading) (place : Place) (name : String) (clauses : AgentClauses) :
    Grows r (r.openAgent place name clauses)
      { agents := [⟨name, clauses.description, clauses.version, clauses.model, default⟩] } := by
  unfold openAgent
  by_cases hagain : r.agents.any (·.name == name) = true
  · -- The name stands twice now, so that the promise about names is void.
    rw [if_pos hagain]
    refine ⟨by simp [outline, Outline.unplaced, Outline.append_eq, report, AgentDecl.unplaced], ?_,
      fun h => faultless_report h rfl _⟩
    intro _ hnodup
    obtain ⟨a, ha, hname⟩ := List.any_eq_true.1 hagain
    rw [beq_iff_eq] at hname
    simp only [report, List.map_append, List.map_cons, List.map_nil] at hnodup
    have hdisjoint := (List.nodup_append.1 hnodup).2.2
    exact absurd rfl (hdisjoint name (List.mem_map.2 ⟨a, ha, hname⟩) name List.mem_cons_self)
  · rw [if_neg hagain]
    refine ⟨by simp [outline, Outline.unplaced, Outline.append_eq, AgentDecl.unplaced], ?_,
      fun h => h⟩
    intro hclean hnodup hstates
    simp only [List.map_append] at hnodup
    exact hclean (List.nodup_append.1 hnodup).1 hstates

lemma scopes_openAgent (r : Reading) (place : Place) (name : String) (clauses : AgentClauses) :
    (r.openAgent place name clauses).scopes = .agent name place.line :: r.scopes := by
  unfold openAgent
  split <;> rfl

/-- A member that is declared again leaves a reading clean. -/
lemma clean_report_memberAgain (h : r.Clean) (line : Nat) (agent : String) (kind : MemberKind)
    (name : String) : (r.report line (.memberAgain agent kind name)).Clean := by
  intro hagents hstates f hf
  rcases List.mem_append.1 hf with hf | hf
  · exact h hagents hstates f hf
  · rw [List.mem_singleton.1 hf]
    rfl

lemma grows_openTool {agent : String} (hagent : r.agent? = some agent) (place : Place)
    (name params : String) (returns description : Option String) :
    Grows r (r.openTool place name params returns description)
      { tools := [⟨name, params, returns, description, agent, default⟩] } := by
  simp only [openTool, hagent]
  split
  · refine ⟨by simp [outline, Outline.unplaced, Outline.append_eq, report, ToolDecl.unplaced], ?_,
      fun h => faultless_report h rfl _⟩
    exact fun hclean => clean_report_memberAgain hclean _ _ _ _
  · refine ⟨by simp [outline, Outline.unplaced, Outline.append_eq, ToolDecl.unplaced], ?_,
      fun h => h⟩
    exact fun hclean => hclean

lemma scopes_openTool {agent : String} (hagent : r.agent? = some agent) (place : Place)
    (name params : String) (returns description : Option String) :
    (r.openTool place name params returns description).scopes = .block place.line :: r.scopes := by
  simp only [openTool, hagent]
  split <;> rfl

lemma grows_openEvent {agent : String} (hagent : r.agent? = some agent) (place : Place)
    (name : String) :
    Grows r (r.openEvent place name) { events := [⟨name, .ofName name, agent, default⟩] } := by
  simp only [openEvent, hagent]
  split
  · refine ⟨by simp [outline, Outline.unplaced, Outline.append_eq, report, EventDecl.unplaced], ?_,
      fun h => faultless_report h rfl _⟩
    exact fun hclean => clean_report_memberAgain hclean _ _ _ _
  · refine ⟨by simp [outline, Outline.unplaced, Outline.append_eq, EventDecl.unplaced], ?_,
      fun h => h⟩
    exact fun hclean => hclean

lemma scopes_openEvent {agent : String} (hagent : r.agent? = some agent) (place : Place)
    (name : String) : (r.openEvent place name).scopes = .block place.line :: r.scopes := by
  simp only [openEvent, hagent]
  split <;> rfl

lemma openState_of_agent? {agent : String} (hagent : r.agent? = some agent) (place : Place) :
    r.openState place = r.push (.state (some agent) place []) := by
  simp [openState, hagent]

/-- What closing a scope adds. -/
def recorded : Scope → Outline
  | .state (some agent) _ fields => { states := [⟨agent, fields, default⟩] }
  | .type name _ fields => { types := [⟨name, fields, default⟩] }
  | _ => {}

lemma grows_record (r : Reading) (line : Nat) (scope : Scope) :
    Grows r (r.record line scope) (recorded scope) := by
  match scope with
  | .agent _ _ => exact .refl r
  | .block _ => exact .refl r
  | .state none _ _ => exact .refl r
  | .type name place fields =>
    exact ⟨by simp [record, recorded, outline, Outline.unplaced, Outline.append_eq,
      TypeDecl.unplaced], fun h => h, fun h => h⟩
  | .state (some agent) place fields =>
    simp only [record, recorded]
    by_cases hagain : r.states.any (·.agent == agent) = true
    · rw [if_pos hagain]
      refine ⟨by simp [outline, Outline.unplaced, Outline.append_eq, report, StateDecl.unplaced], ?_,
        fun h => faultless_report h rfl _⟩
      intro _ _ hnodup
      obtain ⟨s, hs, hname⟩ := List.any_eq_true.1 hagain
      rw [beq_iff_eq] at hname
      simp only [report, List.map_append, List.map_cons, List.map_nil] at hnodup
      have hdisjoint := (List.nodup_append.1 hnodup).2.2
      exact absurd rfl (hdisjoint agent (List.mem_map.2 ⟨s, hs, hname⟩) agent List.mem_cons_self)
    · rw [if_neg hagain]
      refine ⟨by simp [outline, Outline.unplaced, Outline.append_eq, StateDecl.unplaced], ?_,
        fun h => h⟩
      intro hclean hagents hnodup
      simp only [List.map_append] at hnodup
      exact hclean hagents (List.nodup_append.1 hnodup).1

lemma scopes_record (r : Reading) (line : Nat) (scope : Scope) :
    (r.record line scope).scopes = r.scopes := by
  match scope with
  | .agent _ _ => rfl
  | .block _ => rfl
  | .state none _ _ => rfl
  | .type _ _ _ => rfl
  | .state (some agent) _ _ =>
    simp only [record]
    split <;> rfl

lemma grows_close {scope : Scope} {outer : List Scope} (h : r.scopes = scope :: outer)
    (line : Nat) : Grows r (r.close line) (recorded scope) := by
  have hgrows := (grows_of_scopes r outer).trans (grows_record { r with scopes := outer } line scope)
  rw [Outline.empty_append] at hgrows
  rwa [close, h]

lemma scopes_close {scope : Scope} {outer : List Scope} (h : r.scopes = scope :: outer)
    (line : Nat) : (r.close line).scopes = outer := by
  rw [close, h]
  exact scopes_record _ _ _

/-! ## Body text -/

lemma collect_outside (h : r.inFields = false) (segment : List Char) : r.collect segment = r := by
  cases hscopes : r.scopes with
  | nil => simp [collect, hscopes]
  | cons scope outer =>
    have hholds : scope.holdsFields = false := by simpa [inFields, hscopes] using h
    have hcollect : scope.collect segment = scope := by
      cases scope with
      | agent _ _ => rfl
      | block _ => rfl
      | state _ _ _ => cases hholds
      | type _ _ _ => cases hholds
    simp only [collect, hscopes, hcollect]
    rw [← hscopes]

/-- Blanks are no field. -/
lemma pieces_blank {blanks : List Char} (h : ∀ b ∈ blanks, isBlank b = true) :
    pieces blanks = [blanks] :=
  piecesFrom_eq_singleton ((flat_of_isBlank h).unseparated 0)

lemma collect_blank {blanks : List Char} (h : ∀ b ∈ blanks, isBlank b = true) (r : Reading) :
    r.collect blanks = r := by
  have hstate : stateFields blanks = [] := by
    rw [stateFields, pieces_blank h]
    simp [readStateField, dropBlanks_eq_nil h, readName]
  have htype : typeFields blanks = [] := by
    rw [typeFields, pieces_blank h]
    simp [readTypeField, dropBlanks_eq_nil h, readName]
  cases hscopes : r.scopes with
  | nil => simp [collect, hscopes]
  | cons scope outer =>
    have hcollect : scope.collect blanks = scope := by
      cases scope <;> simp [Scope.collect, hstate, htype]
    simp only [collect, hscopes, hcollect]
    rw [← hscopes]

lemma body_of_braceless {cs : List Char} (h : Braceless cs) (segment : List Char) (r : Reading) :
    body n segment cs r = r.collect (segment ++ cs) := by
  induction cs generalizing segment with
  | nil => rw [body, List.append_nil]
  | cons c cs ih =>
    have hc := h c List.mem_cons_self
    rw [body, if_neg hc.1, if_neg hc.2, ih fun d hd => h d (List.mem_cons_of_mem c hd),
      List.append_assoc, List.singleton_append]

lemma body_braceless_append {cs : List Char} (h : Braceless cs) (segment rest : List Char)
    (r : Reading) : body n segment (cs ++ rest) r = body n (segment ++ cs) rest r := by
  induction cs generalizing segment with
  | nil => rw [List.nil_append, List.append_nil]
  | cons c cs ih =>
    have hc := h c List.mem_cons_self
    rw [List.cons_append, body, if_neg hc.1, if_neg hc.2,
      ih fun d hd => h d (List.mem_cons_of_mem c hd), List.append_assoc, List.singleton_append]

/-! ## Lines -/

lemma openings_of_read?_eq_none (h : Header.read? text = none) : openings text = [] :=
  openingsFrom_of_read?_eq_none h 0

/-- A header with nothing behind it is the only opening of its line. -/
lemma openings_of_read? {header : Header} (h : Header.read? text = some (header, [])) :
    openings text = [⟨header, (text.takeWhile isBlank).length + 1, []⟩] := by
  rw [openings, openingsFrom_of_read? h, openingsFrom_of_read?_eq_none rfl, ite_self, Nat.zero_add]

/-- Without openings a whole line is body text. -/
lemma line_of_not_opened (h : r.inFields = true ∨ Header.read? text = none) :
    r.line n text later = body n [] (mask .code text) r := by
  have hopened : (if r.inFields then [] else openings text) = [] := by
    rcases h with h | h
    · rw [if_pos h]
    · rw [openings_of_read?_eq_none h, ite_self]
  rw [line, hopened, bodyText_nil]
  rfl

/-- A line that says nothing at the reader's own level. -/
lemma line_idle (hfields : r.inFields = false) (hread : Header.read? text = none)
    (hbraces : Braceless (mask .code text)) : r.line n text later = r := by
  rw [line_of_not_opened (.inr hread), body_of_braceless hbraces, collect_outside hfields]

/-- A line that holds a header and nothing behind it. -/
lemma line_header {header : Header} (hfields : r.inFields = false)
    (hread : Header.read? text = some (header, [])) (n : Nat) (later : List (List Char)) :
    ∃ column, r.line n text later = r.openOne n later ⟨header, column, []⟩ := by
  refine ⟨(text.takeWhile isBlank).length + 1, ?_⟩
  have hopened : (if r.inFields then [] else openings text) =
      [⟨header, (text.takeWhile isBlank).length + 1, []⟩] := by
    rw [hfields, if_neg Bool.false_ne_true, openings_of_read? hread]
  rw [line, hopened, bodyText, List.getLast?_singleton, Option.map_some, Option.getD_some, mask_nil,
    List.foldl_cons, List.foldl_nil, body, collect_blank fun _ h => absurd h List.not_mem_nil]

/-- A line that is no header and ends in the only brace it opens. -/
lemma line_opens {front : List Char} (hfields : r.inFields = false)
    (hread : Header.read? (front ++ ['{']) = none) (hplain : Plain (front ++ ['{']))
    (hbraces : Braceless front) :
    r.line n (front ++ ['{']) later = r.push (.block n) := by
  have hpush : (r.push (.block n)).collect [] = r.push (.block n) :=
    collect_blank (fun _ h => absurd h List.not_mem_nil) _
  rw [line_of_not_opened (.inr hread), mask_of_plain hplain, body_braceless_append hbraces, body,
    if_pos rfl, collect_outside hfields, body, hpush]

/-- A line that closes a brace and says nothing else. -/
lemma line_closes {blanks : List Char} (hblanks : ∀ b ∈ blanks, isBlank b = true) :
    r.line n (blanks ++ ['}']) later = r.close n := by
  have hinert : Inert blanks := inert_of_forall hblanks (by decide +kernel)
  have hread : Header.read? (blanks ++ ['}']) = none := by
    rw [Header.read?_blanks_append hblanks]
    rfl
  have hmask : mask .code (blanks ++ ['}']) = blanks ++ ['}'] :=
    mask_plain_append hinert.plain ['}'] fun _ => by decide
  have hend : ∀ r' : Reading, body n [] [] r' = r' := fun r' =>
    collect_blank (fun _ h => absurd h List.not_mem_nil) r'
  rw [line_of_not_opened (.inr hread), hmask, body_braceless_append hinert.braceless, body,
    if_neg (by decide), if_pos rfl, List.nil_append, collect_blank hblanks, hend]

/-- A line within a body of fields, read without its literals and its comment. -/
lemma line_inFields (hfields : r.inFields = true) (hbraces : Braceless (mask .code text)) :
    r.line n text later = r.collect (mask .code text) := by
  rw [line_of_not_opened (.inl hfields), body_of_braceless hbraces, List.nil_append]

lemma linesFrom_cons (n : Nat) (text : List Char) (later : List (List Char)) (r : Reading) :
    linesFrom n (text :: later) r = linesFrom (n + 1) later (r.line n text later) := rfl

/-! ## Several lines -/

/-- The lines add these declarations where the given scopes are open, and leave the scopes as they
are, whatever lines follow. -/
def ReadAs (scopes : List Scope) (ls : List (List Char)) (added : Outline) : Prop :=
  ∀ n later r, r.scopes = scopes → ∃ r', linesFrom n (ls ++ later) r =
    linesFrom (n + ls.length) later r' ∧ r'.scopes = scopes ∧ Grows r r' added

variable {scopes : List Scope} {ls ls' : List (List Char)}

lemma readAs_nil (scopes : List Scope) : ReadAs scopes [] {} :=
  fun _ _ r h => ⟨r, rfl, h, .refl r⟩

lemma ReadAs.append (h : ReadAs scopes ls o) (h' : ReadAs scopes ls' o') :
    ReadAs scopes (ls ++ ls') (o ++ o') := by
  intro n later r hr
  obtain ⟨r₁, hlines, hscopes, hgrows⟩ := h n (ls' ++ later) r hr
  obtain ⟨r₂, hlines', hscopes', hgrows'⟩ := h' (n + ls.length) later r₁ hscopes
  refine ⟨r₂, ?_, hscopes', hgrows.trans hgrows'⟩
  rw [List.append_assoc, hlines, hlines', List.length_append, Nat.add_assoc]

lemma ReadAs.flatMap {α : Type} {f : α → List (List Char)} {g : α → Outline} {xs : List α}
    (h : ∀ x ∈ xs, ReadAs scopes (f x) (g x)) :
    ReadAs scopes (xs.flatMap f) (Outline.join (xs.map g)) := by
  induction xs with
  | nil => exact readAs_nil scopes
  | cons x xs ih =>
    rw [List.flatMap_cons, List.map_cons, Outline.join_cons]
    exact (h x List.mem_cons_self).append (ih fun y hy => h y (List.mem_cons_of_mem x hy))

/-- A line that says nothing here. -/
lemma readAs_idle (hfields : ∀ r : Reading, r.scopes = scopes → r.inFields = false)
    (hread : Header.read? text = none) (hbraces : Braceless (mask .code text)) :
    ReadAs scopes [text] {} := by
  intro n later r hr
  refine ⟨r, ?_, hr, .refl r⟩
  rw [List.singleton_append, linesFrom_cons, line_idle (hfields r hr) hread hbraces]
  rfl

end Reading

end Script

end AgentScript
