import AgentScript.Proofs.Script.Enclosure
import AgentScript.Proofs.Script.Growth

/-!
# The braces that reading meets

Reading takes the headers of a line first and then the braces of what they leave.  These are the
braces that it *meets* (`metFrom`), and the ones among them that are unclosed where a line begins are
its stack of scopes there, each with the header it belongs to (`scopes_readBefore`).  The same is told
of any point within a line (`scopes_readTo`).

For a script whose tools have plain parameters the braces met are those of the skeleton
(`metFrom_eq`).  In other scripts the two differ, since a header may end in a brace that masking
takes for a part of a literal; so what is said of all scripts is said of the braces met.

Every agent and every tool that is recorded comes from a header that was met, in the order of the
headers, and its clauses are what the lookahead finds behind that header (`agents_outline`,
`tools_outline`).
-/

namespace AgentScript.Script

open AgentScript.Text

/-! ## Braces met -/

/-- The braces that reading meets in a line, behind the given ones. -/
def metLine (line : Nat) (before : List Brace) (text : List Char) : List Brace :=
  (headersOf before text).map (·.brace line) ++
    tag line [] (bodyText text (headersOf before text))

/-- The braces that reading meets in some lines, the first of which has the given number, behind the
given ones. -/
def metFrom (line : Nat) (before : List Brace) : List (List Char) → List Brace
  | [] => []
  | text :: later =>
    metLine line before text ++ metFrom (line + 1) (before ++ metLine line before text) later

/-- The masked text that follows the headers of a line, up to where so many characters of the line
are left. -/
def bodyTo (text : List Char) (opened : List Opening) (left : Nat) : List Char :=
  let rest := restOf text opened
  mask (situationAfter .code (text.take (text.length - rest.length)))
    (rest.take (rest.length - left))

/-- The braces that reading meets in a line up to where so many characters of it are left. -/
def metLineTo (line : Nat) (before : List Brace) (text : List Char) (left : Nat) : List Brace :=
  ((headersOf before text).filter (left ≤ ·.rest.length)).map (·.brace line) ++
    tag line [] (bodyTo text (headersOf before text) left)

variable (text : String) (n left : Nat)

/-- The braces met before a line. -/
def metBefore : List Brace := metFrom 1 [] ((scriptLines text).take (n - 1))

/-- The braces met up to where so many characters of a line are left. -/
def metTo : List Brace :=
  metBefore text n ++
    ((scriptLines text)[n - 1]?.map (metLineTo n (metBefore text n) · left)).getD []

/-- The braces that are open where a line begins, the innermost first. -/
def standing : List OpenBrace := (matching (metBefore text n)).unclosed

/-- The braces that are open where so many characters of a line are left, the innermost first. -/
def standingTo : List OpenBrace := (matching (metTo text n left)).unclosed

/-- The headers that reading meets. -/
def metHeaders : List Occurrence := occurrencesIn [] (metFrom 1 [] (scriptLines text))

/-- The brace of the header. -/
def Occurrence.openBrace (m : Occurrence) : OpenBrace := ⟨m.line, some m.opening⟩

/-- The text of the line with the given number, as far as it stands behind the header. -/
def Occurrence.textAt? (ls : List (List Char)) (m : Occurrence) (n : Nat) : Option (List Char) :=
  if n = m.line then some m.opening.rest else if m.line < n then ls[n - 1]? else none

variable {line : Nat} {before bs : List Brace} {ls xs ys later : List (List Char)}

lemma metFrom_append (line : Nat) (before : List Brace) (xs ys : List (List Char)) :
    metFrom line before (xs ++ ys) = metFrom line before xs ++
      metFrom (line + xs.length) (before ++ metFrom line before xs) ys := by
  induction xs generalizing line before with
  | nil => simp [metFrom]
  | cons x xs ih =>
    rw [List.cons_append, metFrom, metFrom, ih, List.length_cons, List.append_assoc,
      List.append_assoc, Nat.add_assoc, Nat.add_comm 1]

/-- Where the parameters of tools are plain, the braces met are those of the masked line. -/
lemma metLine_eq {text : List Char}
    (hplain : ∀ o ∈ headersOf before text, o.header.HasPlainParams) :
    metLine line before text = lineBraces line before text := (lineBraces_eq hplain).symm

lemma metFrom_eq (hplain : ∀ m ∈ occurrencesFrom line before ls, m.header.HasPlainParams) :
    metFrom line before ls = bracesFrom line before ls := by
  induction ls generalizing line before with
  | nil => rfl
  | cons text later ih =>
    rw [metFrom, bracesFrom, metLine_eq (hasPlainParams_headersOf hplain),
      ih fun m hm => hplain m (List.mem_append_right _ hm)]

/-- A line that begins with no header has no braces but those of its masked text. -/
lemma metLine_of_starts_eq_false {text : List Char} (h : Header.starts text = false) :
    metLine line before text = tag line [] (mask .code text) := by
  have hread : Header.read? text = none := by rwa [Header.starts, Option.isSome_eq_false_iff,
    Option.isNone_iff_eq_none] at h
  have hheaders : headersOf before text = [] := by
    rw [headersOf, Reading.openings_of_read?_eq_none hread, ite_self]
  rw [metLine, hheaders, bodyText_nil]
  rfl

/-- The braces met before the next line. -/
lemma metBefore_succ (hn : 0 < n) :
    metBefore text (n + 1) = metBefore text n ++
      ((scriptLines text)[n - 1]?.map (metLine n (metBefore text n))).getD [] := by
  obtain ⟨k, rfl⟩ := Nat.exists_eq_add_of_lt hn
  rw [metBefore, metBefore, Nat.zero_add, Nat.add_sub_cancel, Nat.add_sub_cancel, List.take_add_one,
    metFrom_append, List.nil_append]
  cases hline : (scriptLines text)[k]? with
  | none => rfl
  | some line =>
    have hlt : k < (scriptLines text).length := (List.getElem?_eq_some_iff.1 hline).1
    rw [List.length_take_of_le hlt.le, Option.toList_some, metFrom, metFrom, List.append_nil,
      Nat.add_comm 1]
    rfl

/-! ## What is open and what is stray -/

/-- Braces none of which closes one leave none stray. -/
lemma strays_eq_nil (h : ∀ line, .closing line ∉ bs) :
    (matching bs).strays = [] := by
  induction bs using List.reverseRecOn with
  | nil => rfl
  | append_singleton bs x ih =>
    have hbs := ih fun line hline => h line (List.mem_append_left _ hline)
    cases x with
    | opening b => rw [strays_append_opening, hbs]
    | closing line => exact absurd (List.mem_append_right _ List.mem_cons_self) (h line)

/-- What is open was opened. -/
lemma mem_of_mem_unclosed {b : OpenBrace} (h : b ∈ (matching bs).unclosed) : .opening b ∈ bs := by
  induction bs using List.reverseRecOn with
  | nil => cases h
  | append_singleton bs x ih =>
    cases x with
    | opening c =>
      rw [unclosed_append_opening, List.mem_cons] at h
      rcases h with rfl | h
      · exact List.mem_append_right _ List.mem_cons_self
      · exact List.mem_append_left _ (ih h)
    | closing line =>
      rw [unclosed_append_closing] at h
      exact List.mem_append_left _ (ih (List.mem_of_mem_tail h))

/-! ## Where a header is met -/

lemma exists_of_mem_occurrencesIn_map {os : List Opening} {m : Occurrence}
    (hm : m ∈ occurrencesIn before (os.map (·.brace line))) :
    ∃ front back, os = front ++ m.opening :: back ∧ m.line = line ∧
      m.before = before ++ front.map (·.brace line) := by
  induction os generalizing before with
  | nil => cases hm
  | cons o os ih =>
    rw [List.map_cons, occurrencesIn, List.mem_append] at hm
    rcases hm with hm | hm
    · rw [Opening.brace, Brace.occurrence?, Option.toList_some, List.mem_singleton] at hm
      exact ⟨[], os, by rw [hm]; rfl, by rw [hm], by rw [hm]; simp⟩
    · obtain ⟨front, back, hos, hline, hbefore⟩ := ih hm
      exact ⟨o :: front, back, by rw [hos, List.cons_append], hline, by rw [hbefore]; simp⟩

/-- A header stands in a line of the script, behind the braces of the lines before and those of the
headers before it. -/
lemma exists_of_mem_occurrencesIn_metFrom {m : Occurrence}
    (hm : m ∈ occurrencesIn before (metFrom line before ls)) :
    ∃ xs text ys front back, ls = xs ++ text :: ys ∧ m.line = line + xs.length ∧
      headersOf (before ++ metFrom line before xs) text = front ++ m.opening :: back ∧
      m.before = before ++ metFrom line before xs ++ front.map (·.brace m.line) := by
  induction ls generalizing line before with
  | nil => cases hm
  | cons text later ih =>
    rw [metFrom, occurrencesIn_append, List.mem_append] at hm
    rcases hm with hm | hm
    · rw [metLine, occurrencesIn_append, occurrencesIn_tag_nil, List.append_nil] at hm
      obtain ⟨front, back, hheaders, hline, hbefore⟩ := exists_of_mem_occurrencesIn_map hm
      refine ⟨[], text, later, front, back, rfl, hline, ?_, ?_⟩
      · rwa [metFrom, List.append_nil]
      · rwa [metFrom, List.append_nil, hline]
    · obtain ⟨xs, text', ys, front, back, rfl, hline, hheaders, hbefore⟩ := ih hm
      refine ⟨text :: xs, text', ys, front, back, rfl, ?_, ?_, ?_⟩
      · rw [hline, List.length_cons]
        omega
      · rwa [metFrom, ← List.append_assoc]
      · rwa [metFrom, ← List.append_assoc before]

/-! ## The state of reading -/

namespace Reading

/-- Reads the first of the given lines, so many of them, with those behind them at hand for looking
ahead. -/
def linesUpTo (count number : Nat) (ls : List (List Char)) (r : Reading) : Reading :=
  match count, ls with
  | 0, _ => r
  | _ + 1, [] => r
  | count + 1, text :: later => linesUpTo count (number + 1) later (r.line number text later)

/-- Reads a line up to where so many characters of it are left. -/
def lineTo (number : Nat) (text : List Char) (later : List (List Char)) (left : Nat) (r : Reading) :
    Reading :=
  let opened := if r.inFields then [] else openings text
  body number [] (bodyTo text opened left)
    ((opened.filter (left ≤ ·.rest.length)).foldl (openOne number later) r)

variable {r : Reading}

/-- **One line**: reading it follows the braces met. -/
theorem Follows.metLine (h : Follows bs r) (text : List Char) :
    Follows (bs ++ metLine line bs text) (r.line line text later) := by
  rw [Script.metLine, ← List.append_assoc, Reading.line, h.opened_eq text]
  exact (h.foldl_openOne _).body [] _

theorem Follows.metLineTo (h : Follows bs r) (text : List Char) (left : Nat) :
    Follows (bs ++ metLineTo line bs text left) (r.lineTo line text later left) := by
  rw [Script.metLineTo, ← List.append_assoc, lineTo, h.opened_eq text]
  exact (h.foldl_openOne _).body [] _

/-- **Some lines**: reading them follows the braces met. -/
theorem follows_linesUpTo (h : Follows bs r) (count : Nat) :
    Follows (bs ++ metFrom line bs (ls.take count)) (linesUpTo count line ls r) := by
  induction count generalizing ls line bs r with
  | zero => rwa [List.take_zero, metFrom, List.append_nil, linesUpTo]
  | succ count ih =>
    cases ls with
    | nil => rwa [List.take_nil, metFrom, List.append_nil, linesUpTo]
    | cons text later =>
      rw [List.take_succ_cons, metFrom, ← List.append_assoc, linesUpTo]
      exact ih (h.metLine text)

end Reading

/-- The state of reading where a line begins. -/
def readBefore : Reading := Reading.linesUpTo (n - 1) 1 (scriptLines text) {}

/-- The state of reading where so many characters of a line are left. -/
def readTo : Reading :=
  match (scriptLines text).drop (n - 1) with
  | [] => readBefore text n
  | line :: later => (readBefore text n).lineTo n line later left

lemma follows_readBefore : (readBefore text n).Follows (metBefore text n) := by
  have hfollows : (readBefore text n).Follows ([] ++ metBefore text n) :=
    Reading.follows_linesUpTo Reading.follows_nil (n - 1)
  rwa [List.nil_append] at hfollows

/-- **The stack of scopes where a line begins** is that of the braces met before. -/
theorem scopes_readBefore :
    (readBefore text n).scopes.map Scope.bare = scopesOf (standing text n) :=
  (follows_readBefore text n).scopes

/-- **The stack of scopes within a line** is that of the braces met so far. -/
theorem scopes_readTo :
    (readTo text n left).scopes.map Scope.bare = scopesOf (standingTo text n left) := by
  rw [readTo, standingTo, metTo]
  cases hdrop : (scriptLines text).drop (n - 1) with
  | nil =>
    have hnone : (scriptLines text)[n - 1]? = none := by
      rw [← Nat.add_zero (n - 1), ← List.getElem?_drop, hdrop, List.getElem?_nil]
    rw [hnone, Option.map_none, Option.getD_none, List.append_nil]
    exact (follows_readBefore text n).scopes
  | cons line later =>
    have hsome : (scriptLines text)[n - 1]? = some line := by
      rw [← Nat.add_zero (n - 1), ← List.getElem?_drop, hdrop, List.getElem?_cons_zero]
    rw [hsome, Option.map_some, Option.getD_some]
    exact ((follows_readBefore text n).metLineTo line left).scopes

/-! ## What is recorded -/

/-- The agent that a header of the given line declares; `later` holds the lines after it. -/
def Opening.agentDecl? (line : Nat) (later : List (List Char)) (o : Opening) : Option AgentDecl :=
  match o.header with
  | .agent name =>
    let clauses := agentClauses o.rest later
    some ⟨name, clauses.description, clauses.version, clauses.model, ⟨line, o.column⟩⟩
  | _ => none

/-- The tool that a header of the given line declares within the given agent. -/
def Opening.toolDecl? (agent? : Option String) (line : Nat) (later : List (List Char))
    (o : Opening) : Option ToolDecl :=
  match o.header with
  | .tool name params returns =>
    agent?.map (⟨name, params, returns, toolDescription o.rest later, ·, ⟨line, o.column⟩⟩)
  | _ => none

namespace Occurrence

/-- The agent that the header declares in a script of the given lines. -/
def agentDecl? (ls : List (List Char)) (m : Occurrence) : Option AgentDecl :=
  m.opening.agentDecl? m.line (ls.drop m.line)

/-- The tool that the header declares in a script of the given lines, if an agent encloses it. -/
def toolDecl? (ls : List (List Char)) (m : Occurrence) : Option ToolDecl :=
  m.opening.toolDecl? (m.agent?.map (·.1)) m.line (ls.drop m.line)

end Occurrence

namespace Reading

variable {r : Reading}

/-- The reading has recorded the agents and the tools that the headers met so far declare. -/
structure Declares (ls : List (List Char)) (bs : List Brace) (r : Reading) : Prop where
  follows : Follows bs r
  agents : r.agents = (occurrencesIn [] bs).filterMap (Occurrence.agentDecl? ls)
  tools : r.tools = (occurrencesIn [] bs).filterMap (Occurrence.toolDecl? ls)

lemma agents_opened (agent? : Option String) (o : Opening) :
    (opened agent? line later o).agents = (o.agentDecl? line later).toList := by
  obtain ⟨header, column, rest⟩ := o
  cases header <;> cases agent? <;> rfl

lemma tools_opened (agent? : Option String) (o : Opening) :
    (opened agent? line later o).tools = (o.toolDecl? agent? line later).toList := by
  obtain ⟨header, column, rest⟩ := o
  cases header <;> cases agent? <;> rfl

lemma tools_kept (scope : Scope) : (kept scope).tools = [] := by
  unfold kept
  split <;> rfl

lemma Declares.openOne (h : Declares ls bs r) (hlater : ls.drop line = later) (o : Opening) :
    Declares ls (bs ++ [o.brace line]) (r.openOne line later o) := by
  have hone : occurrencesIn [] (bs ++ [o.brace line]) = occurrencesIn [] bs ++ [⟨line, o, bs⟩] :=
    occurrencesIn_append_singleton bs _
  refine ⟨h.follows.openOne line later o, ?_, ?_⟩
  · rw [openOne_eq, agents_append, agents_note, agents_opened, hone, List.filterMap_append, h.agents,
      List.filterMap_cons, Occurrence.agentDecl?, hlater]
    cases o.agentDecl? line later <;> rfl
  · rw [openOne_eq, tools_append, tools_note, tools_opened, hone, List.filterMap_append, h.tools,
      List.filterMap_cons, Occurrence.toolDecl?, hlater, h.follows.agent?_eq, Occurrence.agent?]
    cases o.toolDecl? ((enclosingAgent? bs).map (·.1)) line later <;> rfl

lemma Declares.foldl_openOne (h : Declares ls bs r) (hlater : ls.drop line = later)
    (os : List Opening) :
    Declares ls (bs ++ os.map (·.brace line)) (os.foldl (Reading.openOne line later) r) := by
  induction os generalizing bs r with
  | nil => rwa [List.map_nil, List.append_nil]
  | cons o os ih =>
    have hos := ih (h.openOne hlater o)
    rwa [List.append_assoc, List.singleton_append] at hos

/-- Body text records neither agents nor tools. -/
lemma declared_body (line : Nat) (segment cs : List Char) (r : Reading) :
    (Reading.body line segment cs r).agents = r.agents ∧
      (Reading.body line segment cs r).tools = r.tools := by
  refine body_induction (P := fun r' => r'.agents = r.agents ∧ r'.tools = r.tools) ?_ ?_ ?_
    ⟨rfl, rfl⟩ segment cs
  · intro r' segment h
    rw [Reading.collect]
    split <;> exact h
  · exact fun _ h => h
  · intro r' h
    cases hr : r'.scopes with
    | nil => rwa [close_eq_of_nil hr]
    | cons scope outer =>
      rwa [close_eq_of_cons hr, agents_append, agents_kept, List.append_nil, tools_append,
        tools_kept, List.append_nil]

lemma Declares.nextLine (h : Declares ls bs r) (hlater : ls.drop line = later) (text : List Char) :
    Declares ls (bs ++ Script.metLine line bs text) (r.line line text later) := by
  have hopened := h.foldl_openOne hlater (headersOf bs text)
  have hbody := declared_body line [] (bodyText text (headersOf bs text))
    ((headersOf bs text).foldl (Reading.openOne line later) r)
  have hoccurrences : occurrencesIn [] (bs ++ Script.metLine line bs text) =
      occurrencesIn [] (bs ++ (headersOf bs text).map (·.brace line)) := by
    rw [Script.metLine, ← List.append_assoc, occurrencesIn_append, occurrencesIn_tag_nil,
      List.append_nil]
  refine ⟨h.follows.metLine text, ?_, ?_⟩
  · rw [hoccurrences, ← hopened.agents, ← hbody.1, Reading.line, h.follows.opened_eq]
  · rw [hoccurrences, ← hopened.tools, ← hbody.2, Reading.line, h.follows.opened_eq]

lemma Declares.linesFrom (h : Declares ls bs r) (hlater : ls.drop (line - 1) = later)
    (hline : 0 < line) :
    Declares ls (bs ++ metFrom line bs later) (Reading.linesFrom line later r) := by
  induction later generalizing line bs r with
  | nil => rwa [metFrom, List.append_nil, Reading.linesFrom]
  | cons text later ih =>
    have hnext : ls.drop line = later := by
      rw [← Nat.sub_add_cancel hline, ← List.drop_drop, hlater, List.drop_one, List.tail_cons]
    rw [metFrom, ← List.append_assoc, Reading.linesFrom]
    exact ih (h.nextLine hnext text) (by rwa [Nat.add_sub_cancel]) (Nat.succ_pos line)

lemma tools_finishOne (lineCount : Nat) (r : Reading) (scope : Scope) :
    (finishOne lineCount r scope).tools = r.tools := by
  rw [finishOne, tools_append, tools_kept, List.append_nil, tools_note, tools_note]

lemma tools_finish (r : Reading) (lineCount : Nat) : (r.finish lineCount).tools = r.tools := by
  have hscopes : ∀ (scopes : List Scope) (r : Reading),
      (scopes.foldl (finishOne lineCount) r).tools = r.tools := by
    intro scopes
    induction scopes with
    | nil => exact fun _ => rfl
    | cons scope scopes ih => exact fun r => (ih _).trans (tools_finishOne lineCount r scope)
  rw [finish_eq]
  exact hscopes r.scopes _

end Reading

lemma declares_reading : Reading.Declares (scriptLines text) (metFrom 1 [] (scriptLines text))
    (Reading.linesFrom 1 (scriptLines text) {}) := by
  have hdeclares : Reading.Declares (scriptLines text) ([] ++ metFrom 1 [] (scriptLines text))
      (Reading.linesFrom 1 (scriptLines text) {}) :=
    Reading.Declares.linesFrom ⟨Reading.follows_nil, rfl, rfl⟩ rfl Nat.one_pos
  rwa [List.nil_append] at hdeclares

/-- **The agents** of a script are those that the headers met declare. -/
theorem agents_outline :
    (outline text).agents = (metHeaders text).filterMap (Occurrence.agentDecl? (scriptLines text)) := by
  have hfinish := (Reading.finish_scopes (scriptLines text).length
    (Reading.linesFrom 1 (scriptLines text) {}).scopes
    { Reading.linesFrom 1 (scriptLines text) {} with scopes := [] }).2.1
  rw [← Reading.finish_eq] at hfinish
  exact hfinish.trans (declares_reading text).agents

/-- **The tools** of a script are those that the headers met declare. -/
theorem tools_outline :
    (outline text).tools = (metHeaders text).filterMap (Occurrence.toolDecl? (scriptLines text)) :=
  (Reading.tools_finish _ _).trans (declares_reading text).tools

end AgentScript.Script
