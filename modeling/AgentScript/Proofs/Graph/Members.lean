import AgentScript.Proofs.Graph.Sheets
import AgentScript.Proofs.Script.Lookahead
import AgentScript.Proofs.Script.Trimming

/-!
# The members of a sheet as they are written and read

Every line of a canonical script is read by the rule it was written for and by no other: headers are
headers, clauses are found under their own keys, fields are fields, and nothing else is anything.
This module goes through the lines of tools, event handlers and fields.  For each it is shown what
reading it declares, and that the search for the clauses of the agent around it learns nothing.
-/

namespace AgentScript

open Canonical Script Script.Reading Text

/-! ## Inert parts -/

lemma inert_render {f : StateField} (h : Writable f.name f.type) : Inert f.render.toList := by
  have hmark : Inert (if f.optional then ['?'] else []) := by
    cases f.optional <;> decide
  rw [toList_render_stateField, fieldKey]
  exact (((inert_of_isName h.isName).append hmark).append (by decide)).append
    (inert_of_isType h.isType)

lemma toList_opening (header : String) : (opening header).toList = header.toList ++ [' ', '{'] := by
  rw [opening, String.toList_append]
  rfl

/-- An inert header opens one brace. -/
lemma netBraces_opening {header : List Char} (h : Inert header) :
    netBraces (header ++ [' ', '{']) = 1 := by
  have hseam : header.getLast? = some '/' → [' ', '{'].head? ≠ some '/' := fun _ => by decide
  rw [netBraces, mask_plain_append h.plain _ hseam, braceSum_append,
    braceSum_of_braceless h.braceless]
  rfl

/-- The line that closes a member. -/
def closing : List Char := [' ', ' ', '}']

lemma line_closing (r : Reading) (n : Nat) (later : List (List Char)) :
    r.line n closing later = r.close n := by
  have hblanks : ∀ b ∈ [' ', ' '], isBlank b = true := by decide
  exact line_closes hblanks

lemma netBraces_closing : netBraces closing = -1 := by decide

/-! ## Clauses -/

/-- A value that comes back from between its quotes. -/
lemma isQuote_of_breaksQuotes {text : String} (h : Lint.breaksQuotes text = false) :
    ∀ c ∈ text.toList, isQuote c = false := by
  intro c hc
  have hclass := List.any_eq_false.1 h c hc
  simp only [Bool.or_eq_true, beq_iff_eq, not_or] at hclass
  simp [isQuote, hclass.1.1, hclass.1.2]

lemma toList_clauseLine (indent key value : String) :
    (clauseLine indent key value).toList = written (indent.toList ++ key.toList) value.toList := by
  simp [clauseLine, written]

/-- The line of a clause shows no brace, whatever the value holds. -/
lemma braceless_mask_written {front : List Char} (hfront : Inert front) {text : String}
    (htext : Lint.breaksQuotes text = false) :
    Braceless (mask .code (written front text.toList)) := by
  have hkey : Inert (front ++ [':', ' ']) := hfront.append (by decide)
  have hlast : (front ++ [':', ' ']).getLast? ≠ some '/' := by simp
  have hquote : '"' ∉ text.toList := by
    intro hmem
    have hquote := isQuote_of_breaksQuotes htext '"' hmem
    cases hquote
  have hline : written front text.toList =
      (front ++ [':', ' ']) ++ '"' :: (text.toList ++ ['"']) := by
    simp [written]
  rw [hline]
  exact braceless_mask_quoted hkey.plain hkey.braceless hlast hquote

lemma netBraces_of_braceless_mask {line : List Char} (h : Braceless (mask .code line)) :
    netBraces line = 0 := braceSum_of_braceless h

lemma mem_filled {value : Option String} {text : String} :
    text ∈ filled value ↔ text ∈ value ∧ text ≠ "" := by
  simp [filled, Option.filter_eq_some_iff]

variable {text : String}

/-- What the line of a clause tells under a key. -/
lemma clause?_clauseLine (indent key : String)
    (hfront : ∀ c ∈ indent.toList ++ key.toList, isQuote c = false)
    (htext : Lint.breaksQuotes text = false) (hne : text ≠ "") (key' : String) :
    clause? key' (clauseLine indent key text).toList =
      if key'.toList <:+ indent.toList ++ key.toList then some text else none := by
  rw [toList_clauseLine, clause?_written hfront (isQuote_of_breaksQuotes htext) hne]

lemma add_description (htext : Lint.breaksQuotes text = false) (hne : text ≠ "")
    (known : AgentClauses) :
    known.add (clauseLine "  " "description" text).toList =
      { known with description := some text } := by
  have hline := clause?_clauseLine "  " "description" (by decide) htext hne
  rw [AgentClauses.add, hline, hline, hline, hline, if_pos (by decide), if_neg (by decide),
    if_neg (by decide), if_neg (by decide)]
  rfl

lemma add_version (htext : Lint.breaksQuotes text = false) (hne : text ≠ "")
    (known : AgentClauses) :
    known.add (clauseLine "  " "version" text).toList = { known with version := some text } := by
  have hline := clause?_clauseLine "  " "version" (by decide) htext hne
  rw [AgentClauses.add, hline, hline, hline, hline, if_neg (by decide), if_pos (by decide),
    if_neg (by decide), if_neg (by decide)]
  rfl

lemma add_provider (htext : Lint.breaksQuotes text = false) (hne : text ≠ "")
    (known : AgentClauses) :
    known.add (clauseLine "    " "provider" text).toList =
      { known with model := some ⟨some text, (known.model.getD {}).name⟩ } := by
  have hline := clause?_clauseLine "    " "provider" (by decide) htext hne
  rw [AgentClauses.add, hline, hline, hline, hline, if_neg (by decide), if_neg (by decide),
    if_pos (by decide), if_neg (by decide)]
  rfl

lemma add_name (htext : Lint.breaksQuotes text = false) (hne : text ≠ "") (known : AgentClauses) :
    known.add (clauseLine "    " "name" text).toList =
      { known with model := some ⟨(known.model.getD {}).provider, some text⟩ } := by
  have hline := clause?_clauseLine "    " "name" (by decide) htext hne
  rw [AgentClauses.add, hline, hline, hline, hline, if_neg (by decide), if_neg (by decide),
    if_neg (by decide), if_pos (by decide)]
  rfl

/-- A line that a reader of declarations takes no notice of. -/
def Idle (line : List Char) : Prop :=
  Header.read? line = none ∧ Braceless (mask .code line)

lemma idle_empty : Idle [] := ⟨rfl, by decide⟩

lemma idle_clauseLine {indent key : String} (hread : ∀ value, Header.read? (written
    (indent.toList ++ key.toList) value) = none) (hfront : Inert (indent.toList ++ key.toList))
    (htext : Lint.breaksQuotes text = false) : Idle (clauseLine indent key text).toList := by
  rw [Idle, toList_clauseLine]
  exact ⟨hread _, braceless_mask_written hfront htext⟩

lemma idle_ownDescription (htext : Lint.breaksQuotes text = false) :
    Idle (clauseLine "  " "description" text).toList :=
  idle_clauseLine (fun _ => rfl) (by decide) htext

lemma idle_version (htext : Lint.breaksQuotes text = false) :
    Idle (clauseLine "  " "version" text).toList :=
  idle_clauseLine (fun _ => rfl) (by decide) htext

lemma idle_provider (htext : Lint.breaksQuotes text = false) :
    Idle (clauseLine "    " "provider" text).toList :=
  idle_clauseLine (fun _ => rfl) (by decide) htext

lemma idle_name (htext : Lint.breaksQuotes text = false) :
    Idle (clauseLine "    " "name" text).toList :=
  idle_clauseLine (fun _ => rfl) (by decide) htext

lemma idle_description (htext : Lint.breaksQuotes text = false) :
    Idle (clauseLine "    " "description" text).toList :=
  idle_clauseLine (fun _ => rfl) (by decide) htext

lemma idle_toolBody : Idle toolBody.toList := ⟨rfl, by decide⟩

lemma idle_eventBody : Idle eventBody.toList := ⟨rfl, by decide⟩

lemma Idle.netBraces {line : List Char} (h : Idle line) : netBraces line = 0 :=
  netBraces_of_braceless_mask h.2

/-! ## Braces around lines -/

variable {scopes : List Scope} {head : List Char} {body : List (List Char)} {o : Outline}

/-- Whether the innermost of some scopes holds fields. -/
def OutsideFields (scopes : List Scope) : Prop :=
  ∀ r : Reading, r.scopes = scopes → r.inFields = false

lemma outsideFields_nil : OutsideFields [] := by
  intro r hr
  rw [inFields, hr]
  rfl

lemma outsideFields_agent (name : String) (line : Nat) (outer : List Scope) :
    OutsideFields (.agent name line :: outer) := by
  intro r hr
  rw [inFields, hr]
  rfl

lemma outsideFields_block (line : Nat) (outer : List Scope) :
    OutsideFields (.block line :: outer) := by
  intro r hr
  rw [inFields, hr]
  rfl

lemma readAs_of_idle (hfields : OutsideFields scopes) {ls : List (List Char)}
    (h : ∀ l ∈ ls, Idle l) : ReadAs scopes ls {} := by
  induction ls with
  | nil => exact readAs_nil scopes
  | cons l ls ih =>
    have hl := h l List.mem_cons_self
    have hfirst := readAs_idle hfields hl.1 hl.2
    have hrest := ih fun l' hl' => h l' (List.mem_cons_of_mem l hl')
    have hall := hfirst.append hrest
    rwa [Outline.append_empty] at hall

/-- A member: a line that opens a scope, lines that say nothing, and the line that closes it. -/
lemma readAs_member (hopen : ∀ n later r, r.scopes = scopes →
      (r.line n head (body ++ closing :: later)).scopes = .block n :: scopes ∧
        Grows r (r.line n head (body ++ closing :: later)) o)
    (hbody : ∀ l ∈ body, Idle l) : ReadAs scopes (head :: (body ++ [closing])) o := by
  intro n later r hr
  obtain ⟨hscopes, hgrows⟩ := hopen n later r hr
  obtain ⟨r', hlines, hscopes', hgrows'⟩ :=
    readAs_of_idle (outsideFields_block n scopes) hbody (n + 1) (closing :: later) _ hscopes
  refine ⟨r'.close (n + 1 + body.length), ?_, scopes_close hscopes' _, ?_⟩
  · have hlist : head :: (body ++ [closing]) ++ later = head :: (body ++ closing :: later) := by
      simp
    have hlength : n + (head :: (body ++ [closing])).length = n + 1 + body.length + 1 := by
      simp
      omega
    rw [hlist, hlength, linesFrom_cons, hlines, linesFrom_cons, line_closing]
  · have hclose := hgrows'.trans (grows_close hscopes' (n + 1 + body.length))
    have hall := hgrows.trans hclose
    have hblock : recorded (.block n) = {} := rfl
    rwa [hblock, Outline.append_empty, Outline.append_empty] at hall

/-- Each line of a body of fields turns the innermost scope into one with more fields. -/
lemma linesFrom_fields {ls : List (List Char)} (hls : ∀ l ∈ ls, Braceless (mask .code l))
    {scope : Scope} (hscope : scope.holdsFields = true) {r : Reading}
    (hr : r.scopes = scope :: scopes) (n : Nat) (later : List (List Char)) :
    linesFrom n (ls ++ later) r = linesFrom (n + ls.length) later
      { r with scopes := ls.foldl (fun s l => s.collect (mask .code l)) scope :: scopes } := by
  induction ls generalizing n scope r with
  | nil =>
    rw [List.nil_append, List.foldl_nil, ← hr]
    rfl
  | cons l ls ih =>
    have hl := hls l List.mem_cons_self
    have hfields : r.inFields = true := by
      rw [inFields, hr]
      exact hscope
    have hline : r.line n l (ls ++ later) =
        { r with scopes := scope.collect (mask .code l) :: scopes } := by
      rw [line_inFields hfields hl, collect, hr]
    have hcollected : (scope.collect (mask .code l)).holdsFields = true := by
      cases scope with
      | agent _ _ => cases hscope
      | block _ => cases hscope
      | state _ _ _ => rfl
      | type _ _ _ => rfl
    have hrest := ih (fun l' hl' => hls l' (List.mem_cons_of_mem l hl')) hcollected
      (r := { r with scopes := scope.collect (mask .code l) :: scopes }) rfl (n + 1)
    rw [List.cons_append, linesFrom_cons, hline, hrest, List.foldl_cons, List.length_cons,
      Nat.add_assoc, Nat.add_comm 1]

/-- A body of fields: a line that opens the scope, a line for each field, and the line that closes
it. -/
lemma readAs_fields (scope : Nat → Nat → Scope) {close : List Char}
    (hopen : ∀ n later (r : Reading), r.scopes = scopes → ∃ column,
      r.line n head later = r.push (scope n column))
    (hholds : ∀ n column, (scope n column).holdsFields = true)
    (hbody : ∀ l ∈ body, Braceless (mask .code l))
    (hclose : ∀ (r : Reading) n later, r.line n close later = r.close n)
    (ho : ∀ n column,
      recorded (body.foldl (fun s l => s.collect (mask .code l)) (scope n column)) = o) :
    ReadAs scopes (head :: (body ++ [close])) o := by
  intro n later r hr
  obtain ⟨column, hline⟩ := hopen n (body ++ close :: later) r hr
  have hpush : (r.push (scope n column)).scopes = scope n column :: scopes := by
    rw [push, hr]
  have hbody := linesFrom_fields hbody (hholds n column) hpush (n + 1) (close :: later)
  have hlist : head :: (body ++ [close]) ++ later = head :: (body ++ close :: later) := by
    simp
  have hlength : n + (head :: (body ++ [close])).length = n + 1 + body.length + 1 := by
    simp
    omega
  generalize hr' : ({ r.push (scope n column) with
    scopes := body.foldl (fun s l => s.collect (mask .code l)) (scope n column) :: scopes } :
      Reading) = r' at hbody
  have hscopes : r'.scopes =
      body.foldl (fun s l => s.collect (mask .code l)) (scope n column) :: scopes := by
    rw [← hr']
  refine ⟨r'.close (n + 1 + body.length), ?_, scopes_close hscopes _, ?_⟩
  · rw [hlist, hlength, linesFrom_cons, hline, hbody, linesFrom_cons, hclose]
  · have hcollected : Grows r r' {} := by
      rw [← hr']
      exact grows_of_scopes r _
    have hgrows := hcollected.trans (grows_close hscopes (n + 1 + body.length))
    rwa [Outline.empty_append, ho] at hgrows

/-! ## Tools and event handlers -/

variable {agent : String} {start : Nat}

lemma agent?_of_scopes {r : Reading} (hr : r.scopes = [.agent agent start]) :
    r.agent? = some agent := by
  rw [Reading.agent?, hr]
  rfl

/-- The header of a tool, as it is written. -/
def toolHeader (t : ToolContent) : List Char :=
  "tool".toList ++ ' ' :: (t.label.toList ++ '(' :: ((t.params.getD "").toList ++
    ')' :: (Header.arrow (filled t.returns) ++ [' ', '{'])))

def eventHeader (e : EventContent) : List Char :=
  "on".toList ++ ' ' :: (e.label.toList ++ [' ', '{'])

/-- The body of a tool: its description if there is one, and a comment. -/
def toolBodyLines (t : ToolContent) : List (List Char) :=
  ((filled t.description).map fun text =>
    (clauseLine "    " "description" text).toList).toList ++ [toolBody.toList]

lemma toList_headerLine (t : ToolContent) :
    t.headerLine.toList = [' ', ' '] ++ toolHeader t := by
  rw [ToolContent.headerLine, toList_opening, toolHeader, Header.arrow]
  cases filled t.returns with
  | none => simp
  | some type => simp

lemma map_toolLines (t : ToolContent) : (toolLines t).map String.toList =
    [] :: (([' ', ' '] ++ toolHeader t) :: (toolBodyLines t ++ [closing])) := by
  have hlines : toolLines t = ["", t.headerLine] ++
      ((filled t.description).map (clauseLine "    " "description")).toList ++
        [toolBody, "  \x7d"] := rfl
  rw [hlines, List.map_append, List.map_append, List.map_cons, List.map_cons, List.map_nil,
    toList_headerLine, toolBodyLines]
  cases filled t.description with
  | none => rfl
  | some text => rfl

lemma map_eventLines (e : EventContent) : (eventLines e).map String.toList =
    [] :: (([' ', ' '] ++ eventHeader e) :: ([eventBody.toList] ++ [closing])) := by
  have hheader : (opening ("  on " ++ e.label)).toList = [' ', ' '] ++ eventHeader e := by
    rw [toList_opening, eventHeader]
    simp
  rw [eventLines, List.map_cons, List.map_cons, hheader]
  rfl

lemma getD_params {t : ToolContent} (h : t.Readable) :
    ')' ∉ (t.params.getD "").toList ∧ '\n' ∉ (t.params.getD "").toList := by
  cases hparams : t.params with
  | none => exact ⟨by decide, by decide⟩
  | some params => exact h.params params hparams

lemma read?_toolHeader {t : ToolContent} (h : t.Readable) :
    Header.read? ([' ', ' '] ++ toolHeader t) =
      some (.tool t.label (String.ofList (trim (t.params.getD "").toList)) (filled t.returns), []) := by
  have hblanks : ∀ b ∈ [' ', ' '], isBlank b = true := by decide
  rw [Header.read?_blanks_append hblanks]
  exact Header.read?_tool h.isName (getD_params h).1 fun type htype => (h.returns type htype).1

lemma read?_eventHeader {e : EventContent} (h : isName e.label.toList = true) :
    Header.read? ([' ', ' '] ++ eventHeader e) = some (.event e.label, []) := by
  have hblanks : ∀ b ∈ [' ', ' '], isBlank b = true := by decide
  rw [Header.read?_blanks_append hblanks]
  exact Header.read?_event h

lemma idle_of_mem_toolBodyLines {t : ToolContent} (h : t.Readable) :
    ∀ l ∈ toolBodyLines t, Idle l := by
  intro l hl
  rcases List.mem_append.1 hl with hl | hl
  · rw [Option.mem_toList, Option.map_eq_some_iff] at hl
    obtain ⟨text, htext, rfl⟩ := hl
    exact idle_description (h.description text (mem_filled.1 htext).1)
  · rw [List.mem_singleton.1 hl]
    exact idle_toolBody

/-- A tool finds its own description and no other. -/
lemma toolDescription_toolBodyLines {t : ToolContent} (h : t.Readable) (later : List (List Char)) :
    toolDescription [] (toolBodyLines t ++ closing :: later) = filled t.description := by
  rw [toolBodyLines]
  cases hfilled : filled t.description with
  | none =>
    exact toolDescription_bare rfl (by decide) rfl (by decide) (by decide) later
  | some text =>
    obtain ⟨hmem, hne⟩ := mem_filled.1 (Option.mem_def.2 hfilled)
    have htext := h.description text hmem
    have hline := clause?_clauseLine "    " "description" (by decide) htext hne "description"
    rw [if_pos (by decide)] at hline
    exact toolDescription_described (idle_description htext).1 hline _

lemma readAs_toolLines {t : ToolContent} (h : t.Readable) :
    ReadAs [.agent agent start] ((toolLines t).map String.toList)
      { tools := [Sheet.toolDecl agent t] } := by
  have hfields := outsideFields_agent agent start []
  have hmember : ReadAs [.agent agent start]
      (([' ', ' '] ++ toolHeader t) :: (toolBodyLines t ++ [closing]))
      { tools := [Sheet.toolDecl agent t] } := by
    refine readAs_member (fun n later r hr => ?_) (idle_of_mem_toolBodyLines h)
    obtain ⟨column, hline⟩ := line_header (hfields r hr) (read?_toolHeader h) n
      (toolBodyLines t ++ closing :: later)
    have hagent := agent?_of_scopes hr
    rw [hline, openOne, toolDescription_toolBodyLines h]
    exact ⟨by rw [scopes_openTool hagent, hr], grows_openTool hagent _ _ _ _ _⟩
  have hall := (readAs_idle hfields idle_empty.1 idle_empty.2).append hmember
  rw [Outline.empty_append] at hall
  rw [map_toolLines]
  exact hall

lemma readAs_eventLines {e : EventContent} (h : isName e.label.toList = true) :
    ReadAs [.agent agent start] ((eventLines e).map String.toList)
      { events := [Sheet.eventDecl agent e] } := by
  have hfields := outsideFields_agent agent start []
  have hmember : ReadAs [.agent agent start]
      (([' ', ' '] ++ eventHeader e) :: ([eventBody.toList] ++ [closing]))
      { events := [Sheet.eventDecl agent e] } := by
    refine readAs_member (fun n later r hr => ?_) fun l hl => List.mem_singleton.1 hl ▸ idle_eventBody
    obtain ⟨column, hline⟩ := line_header (hfields r hr) (read?_eventHeader h) n
      ([eventBody.toList] ++ closing :: later)
    have hagent := agent?_of_scopes hr
    rw [hline, openOne]
    exact ⟨by rw [scopes_openEvent hagent, hr], grows_openEvent hagent _ _⟩
  have hall := (readAs_idle hfields idle_empty.1 idle_empty.2).append hmember
  rw [Outline.empty_append] at hall
  rw [map_eventLines]
  exact hall

/-! ## The search learns nothing from members -/

lemma startsAgent_toolHeader (t : ToolContent) :
    Header.startsAgent ([' ', ' '] ++ toolHeader t) = false := by
  have hblanks : ∀ b ∈ [' ', ' '], isBlank b = true := by decide
  rw [Header.startsAgent, Header.readAgent_blanks_append hblanks]
  rfl

lemma startsAgent_eventHeader (e : EventContent) :
    Header.startsAgent ([' ', ' '] ++ eventHeader e) = false := by
  have hblanks : ∀ b ∈ [' ', ' '], isBlank b = true := by decide
  rw [Header.startsAgent, Header.readAgent_blanks_append hblanks]
  rfl

variable {later : List (List Char)}

lemma quiet_closing (hlater : Quiet later) : Quiet (closing :: later) :=
  hlater.quoteless rfl (by decide) (by decide)

/-- The search learns nothing from a tool: its description, if it has one, stands behind a brace
that counts. -/
lemma quiet_toolLines {t : ToolContent} (h : t.Readable) (hlater : Quiet later) :
    Quiet ((toolLines t).map String.toList ++ later) := by
  have hstarts : Header.starts ([' ', ' '] ++ toolHeader t) = true := by
    rw [Header.starts, read?_toolHeader h]
    rfl
  have hend : Quiet (toolBody.toList :: closing :: later) :=
    (quiet_closing hlater).quoteless rfl (by decide) (by decide)
  have hmember : Quiet (([' ', ' '] ++ toolHeader t) ::
      (toolBodyLines t ++ closing :: later)) := by
    rw [toolBodyLines]
    cases hfilled : filled t.description with
    | none => exact hend.header hstarts (startsAgent_toolHeader t)
    | some text =>
      have hbraces := h.opens (by simp [hfilled])
      rw [toList_headerLine] at hbraces
      have htext := idle_description (h.description text (mem_filled.1 hfilled).1)
      have hbody : Hidden ((clauseLine "    " "description" text).toList ::
          toolBody.toList :: closing :: later) :=
        hend.hidden.cons (Int.le_of_eq htext.netBraces.symm)
      exact hbody.header hstarts (startsAgent_toolHeader t) hbraces
  rw [map_toolLines]
  simpa using hmember.empty

lemma quiet_eventLines {e : EventContent} (h : isName e.label.toList = true)
    (hlater : Quiet later) : Quiet ((eventLines e).map String.toList ++ later) := by
  have hstarts : Header.starts ([' ', ' '] ++ eventHeader e) = true := by
    rw [Header.starts, read?_eventHeader h]
    rfl
  have hbody : Quiet (eventBody.toList :: closing :: later) :=
    (quiet_closing hlater).quoteless rfl (by decide) (by decide)
  have hmember := hbody.header hstarts (startsAgent_eventHeader e)
  rw [map_eventLines]
  simpa using hmember.empty

/-- Plain text between inert parts changes nothing about the brace at the end. -/
lemma netBraces_signature {front params back : List Char} (hfront : Inert front)
    (hparams : Plain params) (hbraces : Braceless params) (hback : Inert back) :
    netBraces (front ++ (params ++ (back ++ [' ', '{']))) = 1 := by
  have hlast : front.getLast? ≠ some '/' := fun h => (hfront '/' (List.mem_of_getLast? h)).2.1 rfl
  have hhead : (back ++ [' ', '{']).head? ≠ some '/' := by
    intro h
    rcases List.mem_append.1 (List.mem_of_head? h) with h | h
    · exact (hback '/' h).2.1 rfl
    · revert h
      decide
  rw [netBraces, mask_plain_append hfront.plain _ fun h => absurd h hlast,
    mask_plain_append hparams _ fun _ => hhead, braceSum_append, braceSum_append,
    braceSum_of_braceless hfront.braceless, braceSum_of_braceless hbraces, Int.zero_add,
    Int.zero_add]
  exact netBraces_opening hback

/-- The header of a tool opens one brace if its parameters are plain. -/
lemma netBraces_headerLine {t : ToolContent} (hname : isName t.label.toList = true)
    (hparams : ∀ params ∈ t.params, PlainParams params)
    (hreturns : ∀ type ∈ filled t.returns, isType type.toList = true) :
    netBraces t.headerLine.toList = 1 := by
  have hkeyword : Inert ([' ', ' '] ++ "tool".toList ++ [' ']) := by decide
  have hparen : Inert ['('] := by decide
  have hfront := (hkeyword.append (inert_of_isName hname)).append hparen
  have harrow : Inert (Header.arrow (filled t.returns)) := by
    cases hfilled : filled t.returns with
    | none => exact fun c hc => absurd hc List.not_mem_nil
    | some type =>
      have harrow : Inert [' ', '-', '>', ' '] := by decide
      exact harrow.append (inert_of_isType (hreturns type hfilled))
  have hclose : Inert [')'] := by decide
  have hplain : PlainParams (t.params.getD "") := by
    cases hsome : t.params with
    | none => exact ⟨Inert.plain (by decide), by decide⟩
    | some params => exact hparams params hsome
  have hline := netBraces_signature hfront hplain.1 hplain.2 (hclose.append harrow)
  rw [toList_headerLine]
  simpa [toolHeader] using hline

/-! ## Fields -/

/-- A field is all that its line holds. -/
lemma stateFieldsIn_render {f : StateField} (h : Writable f.name f.type) :
    stateFieldsIn f.render = [f] := by
  rw [stateFieldsIn, mask_of_plain (inert_render h).plain, stateFields_render h]

lemma typeFieldsIn_render {f : TypeField} (h : Writable f.name f.type) :
    typeFieldsIn f.render = [f] := by
  have hinert : Inert f.render.toList := by
    rw [render_typeField]
    exact inert_render h
  rw [typeFieldsIn, mask_of_plain hinert.plain, typeFields_render h]

/-- The line of a state block comes back as it was spelled exactly if it is a field. -/
lemma render_stateFieldsIn_iff {line : String} :
    (stateFieldsIn line).map StateField.render = [line] ↔ IsField line := by
  constructor
  · intro h
    obtain ⟨f, hfields, hrender⟩ := List.map_eq_singleton_iff.1 h
    have hmem : f ∈ stateFieldsIn line := hfields ▸ List.mem_singleton_self f
    exact ⟨f, writable_of_mem_stateFields hmem, hrender.symm⟩
  · rintro ⟨f, hf, rfl⟩
    rw [stateFieldsIn_render hf, List.map_singleton]

/-- The line of a type comes back as it was spelled exactly if it is a field of a type. -/
lemma render_typeFieldsIn_iff {line : String} :
    (typeFieldsIn line).map TypeField.render = [line] ↔ IsTypeField line := by
  constructor
  · intro h
    obtain ⟨f, hfields, hrender⟩ := List.map_eq_singleton_iff.1 h
    have hmem : f ∈ typeFieldsIn line := hfields ▸ List.mem_singleton_self f
    exact ⟨f, writable_of_mem_typeFields hmem, hrender.symm⟩
  · rintro ⟨f, hf, rfl⟩
    rw [typeFieldsIn_render hf, List.map_singleton]

/-- The field as a type spells it. -/
lemma required_render {f : StateField} (h : Writable f.name f.type) :
    required f.render = (TypeField.mk f.name f.type).render := by
  have hname : f.name.toList.filter (· ≠ '?') = f.name.toList := by
    apply List.filter_eq_self.2
    intro c hc
    have hword := (isName_iff.1 h.isName).2 c hc
    rw [decide_eq_true_eq]
    rintro rfl
    exact absurd hword (by decide)
  have htype : f.type.toList.filter (· ≠ '?') = f.type.toList := by
    apply List.filter_eq_self.2
    intro c hc
    have hclass := mem_of_isType h.isType c hc
    rw [decide_eq_true_eq]
    rintro rfl
    revert hclass
    decide
  have hmark : (if f.optional then ['?'] else []).filter (· ≠ '?') = [] := by
    cases f.optional <;> decide
  have hcolon : [':', ' '].filter (· ≠ '?') = [':', ' '] := by decide
  apply String.toList_inj.1
  rw [required, String.toList_ofList, toList_render_stateField, toList_render_typeField, fieldKey,
    fieldKey, List.filter_append, List.filter_append, List.filter_append, hname, htype, hmark,
    hcolon]
  rfl

lemma IsField.isTypeField_required {text : String} (h : IsField text) :
    IsTypeField (required text) := by
  obtain ⟨f, hf, rfl⟩ := h
  exact ⟨⟨f.name, f.type⟩, hf, required_render hf⟩

/-- What a line of a state block holds does not depend on how far it is indented. -/
lemma stateFields_indented {blanks : List Char} (hblanks : ∀ b ∈ blanks, isBlank b = true)
    (line : String) : stateFields (mask .code (blanks ++ line.toList)) = stateFieldsIn line := by
  rw [stateFieldsIn, mask_blanks_append hblanks, ← stateFields_trim, trim_blanks_append hblanks,
    stateFields_trim]

lemma typeFields_indented {blanks : List Char} (hblanks : ∀ b ∈ blanks, isBlank b = true)
    (line : String) : typeFields (mask .code (blanks ++ line.toList)) = typeFieldsIn line := by
  rw [typeFieldsIn, mask_blanks_append hblanks, ← typeFields_trim, trim_blanks_append hblanks,
    typeFields_trim]

/-- What a state block collects from its lines. -/
lemma foldl_collect_state (owner : Option String) (place : Place) (ls : List (List Char))
    (fields : List StateField) :
    ls.foldl (fun s l => s.collect (mask .code l)) (Scope.state owner place fields) =
      Scope.state owner place (fields ++ ls.flatMap fun l => stateFields (mask .code l)) := by
  induction ls generalizing fields with
  | nil => simp
  | cons l ls ih =>
    rw [List.foldl_cons, Scope.collect, ih, List.flatMap_cons, List.append_assoc]

lemma foldl_collect_type (name : String) (place : Place) (ls : List (List Char))
    (fields : List TypeField) :
    ls.foldl (fun s l => s.collect (mask .code l)) (Scope.type name place fields) =
      Scope.type name place (fields ++ ls.flatMap fun l => typeFields (mask .code l)) := by
  induction ls generalizing fields with
  | nil => simp
  | cons l ls ih =>
    rw [List.foldl_cons, Scope.collect, ih, List.flatMap_cons, List.append_assoc]

end AgentScript
