import AgentScript.Proofs.Script.Meeting
import AgentScript.Proofs.Script.Ownership

/-!
# Declarations stand where the outline says

Reading gives every declaration the line and the column of its header.  A column is counted up along
a chain of headers, from what each of them leaves of the line, so it has to be shown that nothing is
lost on the way: from the recorded column on, the line begins with the keyword, and goes on with the
name, the parameters and the type that were recorded (`Outline.Located`).  How headers are spelled is
said here without the reader (`Header.Spelled`).

Agents, tools and event handlers are recorded when their headers are met, and so in the order of their
places.  State blocks and types are recorded when they are closed; that their places differ from all
others is seen from the scopes they were kept in until then (`Reading.Heads`).
-/

namespace AgentScript

open Script Text

namespace Script

/-! ## How headers are spelled -/

/-- Nothing but blanks. -/
def Blanks (cs : List Char) : Prop := ∀ c ∈ cs, isBlank c = true

instance (cs : List Char) : Decidable (Blanks cs) :=
  inferInstanceAs (Decidable (∀ c ∈ cs, isBlank c = true))

namespace Header

def keyword : Header → String
  | .agent _ => "agent"
  | .tool _ _ _ => "tool"
  | .event _ => "on"
  | .state => "state"
  | .type _ => "type"

/-- A keyword and a name with blanks between them, blanks at will, and the given text. -/
def SpelledName (word name : String) (behind cs : List Char) : Prop :=
  ∃ gap blanks, gap ≠ [] ∧ Blanks gap ∧ Blanks blanks ∧
    cs = word.toList ++ gap ++ name.toList ++ blanks ++ behind

/-- Blanks at will, what a tool returns, and the brace. -/
def SpelledEnd (returns : Option String) (cs : List Char) : Prop :=
  match returns with
  | none => ∃ blanks rest, Blanks blanks ∧ cs = blanks ++ '{' :: rest
  | some returns => ∃ before inner behind rest, Blanks before ∧ Blanks inner ∧ Blanks behind ∧
    cs = before ++ "->".toList ++ inner ++ returns.toList ++ behind ++ '{' :: rest

/-- The text begins with the header, its keyword first. -/
def Spelled : Header → List Char → Prop
  | .agent name, cs => ∃ rest, SpelledName "agent" name ('{' :: rest) cs
  | .tool name params returns, cs => ∃ inner behind,
    SpelledName "tool" name ('(' :: (inner ++ ')' :: behind)) cs ∧ ')' ∉ inner ∧
      params.toList = trim inner ∧ SpelledEnd returns behind
  | .event name, cs => ∃ rest, SpelledName "on" name ('{' :: rest) cs
  | .state, cs => ∃ blanks rest, Blanks blanks ∧ cs = "state".toList ++ blanks ++ '{' :: rest
  | .type name, cs => ∃ rest, SpelledName "type" name ('{' :: rest) cs

variable {cs rest left params : List Char} {word name : String} {returns : Option String} {h : Header}

lemma spelledName_of_readNamed (hr : readNamed word cs = some (name, rest)) :
    SpelledName word name rest (dropBlanks cs) := by
  obtain ⟨gap, blanks, hne, hgap, hblanks, -, hcs⟩ := readNamed_sound hr
  exact ⟨gap, blanks, hne, hgap, hblanks, hcs⟩

lemma spelledEnd_of_readEnd (hr : readEnd cs = some (returns, rest)) : SpelledEnd returns cs := by
  obtain ⟨before, hbefore, ⟨rfl, hcs⟩ | ⟨inner, type, behind, hinner, hbehind, -, rfl, hcs⟩⟩ :=
    readEnd_sound hr
  · exact ⟨before, rest, hbefore, hcs⟩
  · exact ⟨before, inner, behind, rest, hbefore, hinner, hbehind, hcs⟩

lemma spelled_tool_of_readTool (hr : readTool cs = some (h, rest)) : h.Spelled (dropBlanks cs) := by
  obtain ⟨name, left, params, after, returns, hname, hparams, hend, rfl⟩ :=
    readTool_eq_some_iff.1 hr
  have hparen : ')' ∉ params := by
    intro hmem
    unfold readParams at hparams
    split at hparams
    next => cases hparams
    next =>
      obtain ⟨rfl, -⟩ := Prod.mk.inj (Option.some.inj hparams)
      have hne := List.mem_takeWhile_imp hmem
      cases hne
  refine ⟨params, after, ?_, hparen, String.toList_ofList, spelledEnd_of_readEnd hend⟩
  rw [← eq_append_of_readParams hparams]
  exact spelledName_of_readNamed hname

/-- What is read as a header is spelled like one. -/
theorem spelled_of_read? (hr : read? cs = some (h, rest)) : h.Spelled (dropBlanks cs) := by
  rcases read?_eq_some_iff.1 hr with hr | hr | hr | hr | hr
  · obtain ⟨name, hname, rfl⟩ := readAgent_eq_some_iff.1 hr
    exact ⟨rest, spelledName_of_readNamed hname⟩
  · exact spelled_tool_of_readTool hr
  · obtain ⟨name, hname, rfl⟩ := readEvent_eq_some_iff.1 hr
    exact ⟨rest, spelledName_of_readNamed hname⟩
  · obtain ⟨after, hafter, hbrace, rfl⟩ := readState_eq_some_iff.1 hr
    obtain ⟨blanks, hblanks, hdrop⟩ := exists_dropBlanks after
    refine ⟨blanks, rest, hblanks, ?_⟩
    rw [after?_eq_some_iff.1 hafter, hdrop, hbrace, List.append_assoc]
  · obtain ⟨name, hname, rfl⟩ := readTypeDecl_eq_some_iff.1 hr
    exact ⟨rest, spelledName_of_readNamed hname⟩

/-- A header begins with its keyword. -/
lemma Spelled.keyword (hs : h.Spelled cs) : h.keyword.toList <+: cs := by
  have hnamed : ∀ {word name : String} {behind : List Char}, SpelledName word name behind cs →
      word.toList <+: cs := by
    rintro word name behind ⟨gap, blanks, -, -, -, rfl⟩
    simp only [List.append_assoc]
    exact List.prefix_append _ _
  cases h with
  | agent name => exact hnamed hs.choose_spec
  | tool name params returns =>
    obtain ⟨inner, behind, hname, -⟩ := hs
    exact hnamed hname
  | event name => exact hnamed hs.choose_spec
  | state =>
    obtain ⟨blanks, rest, -, rfl⟩ := hs
    rw [List.append_assoc]
    exact List.prefix_append _ _
  | type name => exact hnamed hs.choose_spec

end Header

/-! ## Columns -/

/-- A header of the end of a line begins at its column of the whole line. -/
lemma spelled_drop_column (line : List Char) {before : Nat} {cs : List Char}
    (hcs : line.drop before = cs) :
    ∀ o ∈ openingsFrom before cs, 0 < o.column ∧ o.header.Spelled (line.drop (o.column - 1)) := by
  unfold openingsFrom
  split
  next => exact fun o ho => absurd ho List.not_mem_nil
  next header rest hread =>
    have hlt : rest.length < cs.length := Header.length_lt_of_read? hread
    have hrest : line.drop (before + (cs.length - rest.length)) = rest := by
      obtain ⟨front, hfront⟩ := (List.suffix_cons _ rest).trans (Header.read?_suffix hread)
      rw [← List.drop_drop, hcs, ← hfront, List.length_append, Nat.add_sub_cancel,
        List.drop_left]
    have hfront : line.drop (before + (cs.takeWhile isBlank).length) = dropBlanks cs := by
      rw [← List.drop_drop, hcs]
      nth_rewrite 2 [← List.takeWhile_append_dropWhile (p := isBlank) (l := cs)]
      rw [List.drop_left, dropBlanks]
    refine List.forall_mem_cons.2 ⟨⟨Nat.succ_pos _, ?_⟩, ?_⟩
    · rw [Nat.add_sub_cancel, hfront]
      exact Header.spelled_of_read? hread
    · split
      · exact fun o ho => absurd ho List.not_mem_nil
      · exact spelled_drop_column line hrest
termination_by cs.length
decreasing_by exact hlt

/-! ## The places of the headers met -/

section Met

variable {line : Nat} {before : List Brace} {ls : List (List Char)}

/-- The headers of a line are all that has a place in it. -/
lemma filterMap_place?_metLine (line : Nat) (before : List Brace) (text : List Char) :
    (metLine line before text).filterMap Brace.place? =
      (headersOf before text).map fun o => ⟨line, o.column⟩ := by
  have hbody := List.sublist_nil.1 (sublist_place?_tag line []
    (bodyText text (headersOf before text)))
  rw [metLine, List.filterMap_append, hbody, List.append_nil, List.filterMap_map,
    ← List.filterMap_eq_map]
  rfl

lemma le_line_of_mem_metFrom {p : Place}
    (hp : p ∈ (metFrom line before ls).filterMap Brace.place?) : line ≤ p.line := by
  induction ls generalizing line before with
  | nil => cases hp
  | cons text later ih =>
    rw [metFrom, List.filterMap_append, filterMap_place?_metLine, List.mem_append] at hp
    rcases hp with hp | hp
    · obtain ⟨o, -, rfl⟩ := List.mem_map.1 hp
      exact Nat.le_refl _
    · exact Nat.le_of_succ_le (ih hp)

/-- The headers met stand at ever later places. -/
lemma pairwise_place?_metFrom (line : Nat) (before : List Brace) (ls : List (List Char)) :
    ((metFrom line before ls).filterMap Brace.place?).Pairwise Place.Before := by
  induction ls generalizing line before with
  | nil => exact .nil
  | cons text later ih =>
    rw [metFrom, List.filterMap_append, filterMap_place?_metLine, List.pairwise_append]
    refine ⟨?_, ih _ _, fun p hp q hq => .inl ?_⟩
    · rw [List.pairwise_map, headersOf]
      split
      · exact .nil
      · exact (pairwise_column 0 text).2.imp fun h => .inr ⟨rfl, h⟩
    · obtain ⟨o, -, rfl⟩ := List.mem_map.1 hp
      exact le_line_of_mem_metFrom hq

variable (text : String)

theorem pairwise_place_metHeaders :
    ((metHeaders text).map Occurrence.place).Pairwise Place.Before := by
  rw [metHeaders, map_place_occurrencesIn]
  exact pairwise_place?_metFrom 1 [] _

end Met

/-! ## What is recorded of a header -/

end Script

/-- The headers of the declarations of an outline, with the places that were recorded for them. -/
def Outline.headed (o : Outline) : List (Header × Place) :=
  o.agents.map (fun d => (Header.agent d.name, d.place)) ++
    o.tools.map (fun d => (Header.tool d.name d.params d.returns, d.place)) ++
    o.events.map (fun d => (Header.event d.name, d.place)) ++
    o.states.map (fun d => (Header.state, d.place)) ++
    o.types.map fun d => (Header.type d.name, d.place)

namespace Script

/-- The header and the place that an open scope will record. -/
def Scope.pending? : Scope → Option (Header × Place)
  | .state (some _) place _ => some (.state, place)
  | .type name place _ => some (.type name, place)
  | _ => none

/-- What is recorded of a header within the given agent; members are recorded only within one. -/
def Opening.headed? (agent? : Option String) (line : Nat) (o : Opening) : Option (Header × Place) :=
  if o.header.outside?.isSome && agent?.isNone then none else some (o.header, ⟨line, o.column⟩)

/-- The event handler that a header of the given line declares within the given agent. -/
def Opening.eventDecl? (agent? : Option String) (line : Nat) (o : Opening) : Option EventDecl :=
  match o.header with
  | .event name => agent?.map (⟨name, .ofName name, ·, ⟨line, o.column⟩⟩)
  | _ => none

namespace Occurrence

/-- What is recorded of the header. -/
def headed? (m : Occurrence) : Option (Header × Place) :=
  m.opening.headed? (m.agent?.map (·.1)) m.line

/-- The event handler that the header declares, if an agent encloses it. -/
def eventDecl? (m : Occurrence) : Option EventDecl :=
  m.opening.eventDecl? (m.agent?.map (·.1)) m.line

end Occurrence

namespace Reading

/-- The headers that a reading has recorded, and those that its open scopes will record. -/
def headed (r : Reading) : List (Header × Place) :=
  r.outline.headed ++ r.scopes.filterMap Scope.pending?

/-- The reading has recorded, or keeps in a scope, what is to be recorded of the headers met so
far. -/
structure Heads (bs : List Brace) (r : Reading) : Prop where
  follows : Follows bs r
  headed : r.headed.Perm ((occurrencesIn [] bs).filterMap Occurrence.headed?)
  events : r.events = (occurrencesIn [] bs).filterMap Occurrence.eventDecl?

variable {r : Reading} {bs : List Brace} {line : Nat} {later : List (List Char)}

lemma headed_append (r d : Reading) : (r ++ d).headed.Perm (r.headed ++ d.headed) := by
  rw [List.perm_iff_count]
  intro x
  simp only [headed, Outline.headed, outline, agents_append, tools_append, events_append,
    states_append, types_append, scopes_append, List.map_append, List.filterMap_append,
    List.count_append]
  omega

lemma headed_note (r : Reading) (line : Nat) (cause? : Option Cause) :
    (r.note line cause?).headed = r.headed := rfl

lemma headed_kept (scope : Scope) : (kept scope).headed = scope.pending?.toList := by
  match scope with
  | .agent _ _ => rfl
  | .block _ => rfl
  | .state none _ _ => rfl
  | .state (some _) _ _ => rfl
  | .type _ _ _ => rfl

lemma events_kept (scope : Scope) : (kept scope).events = [] := by
  unfold kept
  split <;> rfl

lemma headed_opened (agent? : Option String) (line : Nat) (later : List (List Char)) (o : Opening) :
    (opened agent? line later o).headed = (o.headed? agent? line).toList := by
  obtain ⟨header, column, rest⟩ := o
  cases header <;> cases agent? <;> rfl

lemma events_opened (agent? : Option String) (line : Nat) (later : List (List Char)) (o : Opening) :
    (opened agent? line later o).events = (o.eventDecl? agent? line).toList := by
  obtain ⟨header, column, rest⟩ := o
  cases header <;> cases agent? <;> rfl

/-! ### Steps -/

lemma heads_nil : Heads [] {} := ⟨follows_nil, .refl _, rfl⟩

lemma Heads.openOne (h : Heads bs r) (line : Nat) (later : List (List Char)) (o : Opening) :
    Heads (bs ++ [o.brace line]) (r.openOne line later o) := by
  have hone : occurrencesIn [] (bs ++ [o.brace line]) = occurrencesIn [] bs ++ [⟨line, o, bs⟩] :=
    occurrencesIn_append_singleton bs _
  have hagent : r.agent? = (Occurrence.mk line o bs).agent?.map (·.1) := h.follows.agent?_eq
  have hsingle : ∀ {α : Type} (f : Occurrence → Option α),
      [Occurrence.mk line o bs].filterMap f = (f ⟨line, o, bs⟩).toList := by
    intro α f
    rw [List.filterMap_cons]
    cases f ⟨line, o, bs⟩ <;> rfl
  refine ⟨h.follows.openOne line later o, ?_, ?_⟩
  · rw [openOne_eq, hone, List.filterMap_append, hsingle, hagent]
    refine (headed_append _ _).trans ?_
    rw [headed_note, headed_opened]
    exact h.headed.append_right _
  · rw [openOne_eq, hone, List.filterMap_append, hsingle, hagent, events_append, events_note,
      events_opened, h.events]
    rfl

lemma Heads.foldl_openOne (h : Heads bs r) (os : List Opening) :
    Heads (bs ++ os.map (·.brace line)) (os.foldl (Reading.openOne line later) r) := by
  induction os generalizing bs r with
  | nil => rwa [List.map_nil, List.append_nil]
  | cons o os ih =>
    have hos := ih (h.openOne line later o)
    rwa [List.append_assoc, List.singleton_append] at hos

/-- Braces that end no header are no occurrences. -/
lemma Heads.other {r' : Reading} {x : Brace} (h : Heads bs r) (hx : x.occurrence? bs = none)
    (hfollows : Follows (bs ++ [x]) r') (hheaded : r'.headed.Perm r.headed)
    (hevents : r'.events = r.events) : Heads (bs ++ [x]) r' := by
  have hnone : occurrencesIn [] (bs ++ [x]) = occurrencesIn [] bs := by
    rw [occurrencesIn_append_singleton, hx, Option.toList_none, List.append_nil]
  refine ⟨hfollows, ?_, ?_⟩
  · rw [hnone]
    exact hheaded.trans h.headed
  · rw [hnone, hevents, h.events]

lemma Heads.collect (h : Heads bs r) (segment : List Char) : Heads bs (r.collect segment) := by
  have hpending : ∀ scope : Scope, (scope.collect segment).pending? = scope.pending? := by
    intro scope
    match scope with
    | .agent _ _ => rfl
    | .block _ => rfl
    | .state none _ _ => rfl
    | .state (some _) _ _ => rfl
    | .type _ _ _ => rfl
  have hfields : (r.collect segment).headed = r.headed ∧
      (r.collect segment).events = r.events := by
    cases hr : r.scopes with
    | nil =>
      rw [Reading.collect, hr]
      exact ⟨rfl, rfl⟩
    | cons scope outer =>
      rw [Reading.collect, hr]
      refine ⟨?_, rfl⟩
      rw [Reading.headed, Reading.headed, hr, List.filterMap_cons, List.filterMap_cons, hpending]
      rfl
  refine ⟨h.follows.collect segment, ?_, ?_⟩
  · rw [hfields.1]
    exact h.headed
  · rw [hfields.2]
    exact h.events

lemma Heads.push (h : Heads bs r) (line : Nat) :
    Heads (bs ++ [.opening ⟨line, none⟩]) (r.push (.block line)) :=
  h.other rfl (h.follows.push line) (.refl _) rfl

lemma Heads.close (h : Heads bs r) (line : Nat) :
    Heads (bs ++ [.closing line]) (r.close line) := by
  cases hr : r.scopes with
  | nil =>
    refine h.other rfl (h.follows.close line) ?_ ?_
    · rw [close_eq_of_nil hr, headed_note]
    · rw [close_eq_of_nil hr, events_note]
  | cons scope outer =>
    have hpop : (r.pop.headed ++ scope.pending?.toList).Perm r.headed := by
      rw [Reading.headed, Reading.headed, List.append_assoc]
      refine List.Perm.append_left _ ?_
      rw [pop, hr, List.tail_cons, List.filterMap_cons]
      cases scope.pending? with
      | none => exact .of_eq (List.append_nil _)
      | some p => exact List.perm_append_singleton p _
    refine h.other rfl (h.follows.close line) ?_ ?_
    · rw [close_eq_of_cons hr]
      refine (headed_append _ _).trans ?_
      rw [headed_note, headed_kept]
      exact hpop
    · rw [close_eq_of_cons hr, events_append, events_kept, List.append_nil]
      rfl

lemma Heads.body (h : Heads bs r) (segment cs : List Char) :
    Heads (bs ++ tag line [] cs) (Reading.body line segment cs r) := by
  refine body_tag_induction ?_ ?_ ?_ h segment cs
  · exact fun _ _ segment hr => hr.collect segment
  · exact fun _ _ hr => hr.push line
  · exact fun _ _ hr => hr.close line

/-- **One line** keeps to the headers met. -/
theorem Heads.nextLine (h : Heads bs r) (text : List Char) :
    Heads (bs ++ Script.metLine line bs text) (r.line line text later) := by
  rw [Script.metLine, ← List.append_assoc, Reading.line, h.follows.opened_eq text]
  exact (h.foldl_openOne _).body [] _

/-- **Some lines** keep to the headers met. -/
theorem Heads.linesFrom (h : Heads bs r) (line : Nat) (ls : List (List Char)) :
    Heads (bs ++ metFrom line bs ls) (Reading.linesFrom line ls r) := by
  induction ls generalizing line bs r with
  | nil => rwa [metFrom, List.append_nil, Reading.linesFrom]
  | cons text later ih =>
    rw [metFrom, ← List.append_assoc, Reading.linesFrom]
    exact ih (h.nextLine text) (line + 1)

/-! ### The end of the text -/

lemma headed_foldl_finishOne (lineCount : Nat) (scopes : List Scope) (r : Reading) :
    (scopes.foldl (finishOne lineCount) r).headed.Perm
        (r.headed ++ scopes.filterMap Scope.pending?) ∧
      (scopes.foldl (finishOne lineCount) r).events = r.events := by
  induction scopes generalizing r with
  | nil => exact ⟨.of_eq (List.append_nil _).symm, rfl⟩
  | cons scope scopes ih =>
    obtain ⟨hheaded, hevents⟩ := ih (finishOne lineCount r scope)
    have hone : (finishOne lineCount r scope).headed.Perm (r.headed ++ scope.pending?.toList) := by
      rw [finishOne, ← headed_kept]
      exact headed_append _ _
    have hsplit : (scope :: scopes).filterMap Scope.pending? =
        scope.pending?.toList ++ scopes.filterMap Scope.pending? := by
      rw [List.filterMap_cons]
      cases scope.pending? <;> rfl
    rw [List.foldl_cons, hsplit, ← List.append_assoc]
    refine ⟨hheaded.trans (hone.append_right _), hevents.trans ?_⟩
    rw [finishOne, events_append, events_kept, List.append_nil]
    rfl

end Reading

variable (text : String)

lemma heads_linesFrom : Reading.Heads (metFrom 1 [] (scriptLines text))
    (Reading.linesFrom 1 (scriptLines text) {}) := by
  have hheads := Reading.heads_nil.linesFrom 1 (scriptLines text)
  rwa [List.nil_append] at hheads

/-- **The declarations** of a script are those of the headers met. -/
theorem headed_outline :
    (outline text).headed.Perm ((metHeaders text).filterMap Occurrence.headed?) := by
  have hlines := heads_linesFrom text
  have hscopes := (Reading.finish_scopes (scriptLines text).length
    (Reading.linesFrom 1 (scriptLines text) {}).scopes
    { Reading.linesFrom 1 (scriptLines text) {} with scopes := [] }).1
  have hfinish := (Reading.headed_foldl_finishOne (scriptLines text).length
    (Reading.linesFrom 1 (scriptLines text) {}).scopes
    { Reading.linesFrom 1 (scriptLines text) {} with scopes := [] }).1
  rw [← Reading.finish_eq] at hscopes hfinish
  have houtline : (reading text).headed = (outline text).headed := by
    rw [Reading.headed, reading, hscopes, List.filterMap_nil, List.append_nil]
    rfl
  rw [← houtline]
  refine hfinish.trans (.trans (.of_eq ?_) hlines.headed)
  rw [Reading.headed, Reading.headed, List.filterMap_nil, List.append_nil]
  rfl

/-- **The event handlers** of a script are those that the headers met declare. -/
theorem events_outline :
    (outline text).events = (metHeaders text).filterMap Occurrence.eventDecl? := by
  have hfinish := (Reading.headed_foldl_finishOne (scriptLines text).length
    (Reading.linesFrom 1 (scriptLines text) {}).scopes
    { Reading.linesFrom 1 (scriptLines text) {} with scopes := [] }).2
  rw [← Reading.finish_eq] at hfinish
  exact hfinish.trans (heads_linesFrom text).events

end Script

/-! ## Declarations in their places -/

/-- Among the given lines there is the one of the place, and from the column on it begins with the
keyword of the header and is spelled like the header. -/
def Place.Shows (ls : List (List Char)) (p : Place) (h : Header) : Prop :=
  0 < p.line ∧ 0 < p.column ∧ ∃ line, ls[p.line - 1]? = some line ∧
    h.keyword.toList <+: line.drop (p.column - 1) ∧ h.Spelled (line.drop (p.column - 1))

/-- The places of an outline are those of the headers in the given lines. -/
structure Outline.Located (ls : List (List Char)) (o : Outline) : Prop where
  agents : ∀ d ∈ o.agents, d.place.Shows ls (.agent d.name)
  tools : ∀ d ∈ o.tools, d.place.Shows ls (.tool d.name d.params d.returns)
  events : ∀ d ∈ o.events, d.place.Shows ls (.event d.name)
  states : ∀ d ∈ o.states, d.place.Shows ls .state
  types : ∀ d ∈ o.types, d.place.Shows ls (.type d.name)
  /-- No two declarations, of whatever kind, stand at the same place. -/
  distinct : (o.agents.map (·.place) ++ o.tools.map (·.place) ++ o.events.map (·.place) ++
    o.states.map (·.place) ++ o.types.map (·.place)).Nodup
  agents_ordered : (o.agents.map (·.place)).Pairwise Place.Before
  tools_ordered : (o.tools.map (·.place)).Pairwise Place.Before
  events_ordered : (o.events.map (·.place)).Pairwise Place.Before

namespace Script

variable {text : String}

/-- The line that a header was met in. -/
lemma getElem?_line {m : Occurrence} {xs ys : List (List Char)} {line : List Char}
    (hls : scriptLines text = xs ++ line :: ys) (hline : m.line = 1 + xs.length) :
    (scriptLines text)[m.line - 1]? = some line := by
  rw [hls, hline, Nat.add_sub_cancel_left, List.getElem?_append_right (Nat.le_refl _), Nat.sub_self,
    List.getElem?_cons_zero]

/-- A header that was met stands at its place. -/
lemma shows_of_mem_metHeaders {m : Occurrence} (hm : m ∈ metHeaders text) :
    m.place.Shows (scriptLines text) m.header := by
  obtain ⟨xs, line, ys, front, back, hls, hline, hheaders, -⟩ :=
    exists_of_mem_occurrencesIn_metFrom hm
  have hmem : m.opening ∈ openingsFrom 0 line := by
    have hheader : m.opening ∈ headersOf ([] ++ metFrom 1 [] xs) line := by
      rw [hheaders]
      exact List.mem_append_right _ List.mem_cons_self
    rw [headersOf] at hheader
    split at hheader
    · cases hheader
    · exact hheader
  obtain ⟨hcolumn, hspelled⟩ := spelled_drop_column line List.drop_zero m.opening hmem
  have hpositive : 0 < m.line := by omega
  exact ⟨hpositive, hcolumn, line, getElem?_line hls hline, hspelled.keyword, hspelled⟩

lemma eq_of_headed? {m : Occurrence} {d : Header × Place} (h : m.headed? = some d) :
    d = (m.header, m.place) := by
  obtain ⟨-, h⟩ := Option.ite_none_left_eq_some.1 h
  exact (Option.some.inj h).symm

lemma shows_of_mem_headed {d : Header × Place} (hd : d ∈ (outline text).headed) :
    d.2.Shows (scriptLines text) d.1 := by
  obtain ⟨m, hm, hheaded⟩ := List.mem_filterMap.1 ((headed_outline text).mem_iff.1 hd)
  rw [eq_of_headed? hheaded]
  exact shows_of_mem_metHeaders hm

/-- What is recorded of headers stands in the order of the headers. -/
lemma pairwise_of_filterMap {α : Type} {f : Occurrence → Option α} {place : α → Place}
    (hf : ∀ m d, f m = some d → place d = m.place) :
    (((metHeaders text).filterMap f).map place).Pairwise Place.Before := by
  rw [List.pairwise_map, List.pairwise_filterMap]
  have hplaces := pairwise_place_metHeaders text
  rw [List.pairwise_map] at hplaces
  refine hplaces.imp fun {m m'} hbefore d hd d' hd' => ?_
  rwa [hf m d hd, hf m' d' hd']

lemma place_of_agentDecl? {ls : List (List Char)} {m : Occurrence} {d : AgentDecl}
    (h : m.agentDecl? ls = some d) : d.place = m.place := by
  obtain ⟨line, ⟨header, column, rest⟩, before⟩ := m
  cases header with
  | agent name => cases h; rfl
  | _ => cases h

lemma place_of_toolDecl? {ls : List (List Char)} {m : Occurrence} {d : ToolDecl}
    (h : m.toolDecl? ls = some d) : d.place = m.place := by
  obtain ⟨line, ⟨header, column, rest⟩, before⟩ := m
  cases header with
  | tool name params returns =>
    obtain ⟨agent, -, rfl⟩ := Option.map_eq_some_iff.1 h
    rfl
  | _ => cases h

lemma place_of_eventDecl? {m : Occurrence} {d : EventDecl} (h : m.eventDecl? = some d) :
    d.place = m.place := by
  obtain ⟨line, ⟨header, column, rest⟩, before⟩ := m
  cases header with
  | event name =>
    obtain ⟨agent, -, rfl⟩ := Option.map_eq_some_iff.1 h
    rfl
  | _ => cases h

/-- No two declarations stand at the same place. -/
lemma nodup_place_outline (text : String) :
    ((outline text).agents.map (·.place) ++ (outline text).tools.map (·.place) ++
      (outline text).events.map (·.place) ++ (outline text).states.map (·.place) ++
      (outline text).types.map (·.place)).Nodup := by
  have hnodup : (((metHeaders text).filterMap Occurrence.headed?).map (·.2)).Nodup :=
    (pairwise_of_filterMap fun m d h => by rw [eq_of_headed? h]).imp Place.Before.ne
  rw [← ((headed_outline text).map (·.2)).nodup_iff, Outline.headed] at hnodup
  simp only [List.map_append, List.map_map] at hnodup
  exact hnodup

/-- **Every declaration stands where the outline says.** -/
theorem located_outline (text : String) : (outline text).Located (scriptLines text) where
  agents d hd := shows_of_mem_headed (d := (.agent d.name, d.place)) (by
    simp only [Outline.headed, List.mem_append]
    exact .inl (.inl (.inl (.inl (List.mem_map_of_mem hd)))))
  tools d hd := shows_of_mem_headed (d := (.tool d.name d.params d.returns, d.place)) (by
    simp only [Outline.headed, List.mem_append]
    exact .inl (.inl (.inl (.inr (List.mem_map_of_mem hd)))))
  events d hd := shows_of_mem_headed (d := (.event d.name, d.place)) (by
    simp only [Outline.headed, List.mem_append]
    exact .inl (.inl (.inr (List.mem_map_of_mem hd))))
  states d hd := shows_of_mem_headed (d := (.state, d.place)) (by
    simp only [Outline.headed, List.mem_append]
    exact .inl (.inr (List.mem_map_of_mem hd)))
  types d hd := shows_of_mem_headed (d := (.type d.name, d.place)) (by
    simp only [Outline.headed, List.mem_append]
    exact .inr (List.mem_map_of_mem hd))
  distinct := nodup_place_outline text
  agents_ordered := by
    rw [agents_outline]
    exact pairwise_of_filterMap fun m d => place_of_agentDecl?
  tools_ordered := by
    rw [tools_outline]
    exact pairwise_of_filterMap fun m d => place_of_toolDecl?
  events_ordered := by
    rw [events_outline]
    exact pairwise_of_filterMap fun m d => place_of_eventDecl?

-- Columns count characters, of however many bytes.
example : (outline "agent Größe {　on   é { } }").events.map (·.place) =
    [⟨1, 15⟩] := by decide +kernel

end Script

end AgentScript
