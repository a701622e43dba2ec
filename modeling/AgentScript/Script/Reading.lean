import AgentScript.Script.ClauseSearch
import AgentScript.Script.Opening
import AgentScript.Script.Scope
import AgentScript.Text.Lines

/-!
# Reading a script

A script is read line by line.  The openings of a line are recorded and opened from left to right;
what follows them is body text, whose braces open and close scopes and whose other characters are
offered to the innermost scope.  A line that begins inside a body of fields has no openings.

Agents, tools and event handlers are recorded when their headers are read, state blocks and types
when they are closed, since only then their fields are complete.  At the end of the text every
scope that is still open is reported and closed, the innermost first.

The diagnostics of the outline are the findings, ordered by line; findings on one line keep the
order in which they were made.
-/

namespace AgentScript.Script

open AgentScript.Text

/-- How far reading has come: the open scopes, what has been recorded, and what has been found. -/
structure Reading where
  /-- The open scopes, innermost first. -/
  scopes : List Scope := []
  agents : List AgentDecl := []
  tools : List ToolDecl := []
  events : List EventDecl := []
  states : List StateDecl := []
  types : List TypeDecl := []
  findings : List Finding := []
  deriving DecidableEq, Repr, Inhabited

namespace Reading

def report (r : Reading) (line : Nat) (cause : Cause) : Reading :=
  { r with findings := r.findings ++ [⟨line, cause⟩] }

def push (r : Reading) (scope : Scope) : Reading := { r with scopes := scope :: r.scopes }

/-- The innermost agent that is open. -/
def agent? (r : Reading) : Option String := innermostAgent? r.scopes

/-- Whether the innermost scope holds fields. -/
def inFields (r : Reading) : Bool := (r.scopes.head?.map Scope.holdsFields).getD false

/-! ## Opening -/

def openAgent (r : Reading) (place : Place) (name : String) (clauses : AgentClauses) : Reading :=
  let r := if r.agents.any (·.name == name) then r.report place.line (.agentAgain name) else r
  { r with
    agents := r.agents ++ [⟨name, clauses.description, clauses.version, clauses.model, place⟩]
    scopes := .agent name place.line :: r.scopes }

def openTool (r : Reading) (place : Place) (name params : String)
    (returns description : Option String) : Reading :=
  match r.agent? with
  | none => (r.report place.line (.toolOutside name)).push (.block place.line)
  | some agent =>
    let r :=
      if r.tools.any (fun t => t.agent == agent && t.name == name) then
        r.report place.line (.memberAgain agent .tool name)
      else r
    { r with
      tools := r.tools ++ [⟨name, params, returns, description, agent, place⟩]
      scopes := .block place.line :: r.scopes }

def openEvent (r : Reading) (place : Place) (name : String) : Reading :=
  match r.agent? with
  | none => (r.report place.line (.eventOutside name)).push (.block place.line)
  | some agent =>
    let r :=
      if r.events.any (fun e => e.agent == agent && e.name == name) then
        r.report place.line (.memberAgain agent .event name)
      else r
    { r with
      events := r.events ++ [⟨name, .ofName name, agent, place⟩]
      scopes := .block place.line :: r.scopes }

def openState (r : Reading) (place : Place) : Reading :=
  let owner := r.agent?
  let r := if owner.isNone then r.report place.line .stateOutside else r
  r.push (.state owner place [])

/-- One opening of the given line; `later` holds the lines after it. -/
def openOne (line : Nat) (later : List (List Char)) (r : Reading) (o : Opening) : Reading :=
  let place : Place := ⟨line, o.column⟩
  match o.header with
  | .agent name => r.openAgent place name (agentClauses o.rest later)
  | .tool name params returns =>
    r.openTool place name params returns (toolDescription o.rest later)
  | .event name => r.openEvent place name
  | .state => r.openState place
  | .type name => r.push (.type name place [])

/-! ## Closing -/

/-- Records what a closed scope has collected. -/
def record (r : Reading) (line : Nat) : Scope → Reading
  | .state (some agent) place fields =>
    let r := if r.states.any (·.agent == agent) then r.report line (.stateAgain agent) else r
    { r with states := r.states ++ [⟨agent, fields, place⟩] }
  | .type name place fields => { r with types := r.types ++ [⟨name, fields, place⟩] }
  | _ => r

/-- Closes the innermost scope. -/
def close (r : Reading) (line : Nat) : Reading :=
  match r.scopes with
  | [] => r.report line .strayBrace
  | scope :: outer => { r with scopes := outer }.record line scope

/-- Closes every open scope at the end of a text of so many lines. -/
def finish (r : Reading) (lineCount : Nat) : Reading :=
  r.scopes.foldl
    (fun r scope =>
      (r.report scope.line (.neverClosed scope.opener scope.line)).record lineCount scope)
    { r with scopes := [] }

/-! ## Body text -/

/-- Offers a stretch of body text without braces to the innermost scope. -/
def collect (r : Reading) (segment : List Char) : Reading :=
  match r.scopes with
  | [] => r
  | scope :: outer => { r with scopes := scope.collect segment :: outer }

/-- Reads masked body text; `segment` is what has been read of it since the last brace. -/
def body (line : Nat) (segment : List Char) : List Char → Reading → Reading
  | [], r => r.collect segment
  | c :: cs, r =>
    if c = '{' then body line [] cs ((r.collect segment).push (.block line))
    else if c = '}' then body line [] cs ((r.collect segment).close line)
    else body line (segment ++ [c]) cs r

/-! ## Lines -/

/-- Reads one line; `later` holds the lines after it. -/
def line (number : Nat) (text : List Char) (later : List (List Char)) (r : Reading) : Reading :=
  let opened := if r.inFields then [] else openings text
  body number [] (bodyText text opened) (opened.foldl (openOne number later) r)

/-- Reads the given lines, the first of which has the given number. -/
def linesFrom (number : Nat) : List (List Char) → Reading → Reading
  | [], r => r
  | text :: later, r => linesFrom (number + 1) later (r.line number text later)

/-- The findings as diagnostics, ordered by line. -/
def diagnostics (r : Reading) : List Diagnostic :=
  (r.findings.map Finding.toDiagnostic).mergeSort (·.line ≤ ·.line)

def outline (r : Reading) : Outline where
  agents := r.agents
  tools := r.tools
  events := r.events
  states := r.states
  types := r.types
  diagnostics := r.diagnostics

end Reading

/-- The text without one byte order mark at its front. -/
def dropByteOrderMark : List Char → List Char
  | '\uFEFF' :: cs => cs
  | cs => cs

/-- The lines of a script. -/
def scriptLines (text : String) : List (List Char) := lines (dropByteOrderMark text.toList)

/-- The state of reading after the whole of a script. -/
def reading (text : String) : Reading :=
  let ls := scriptLines text
  (Reading.linesFrom 1 ls {}).finish ls.length

/-- The outline of a script. -/
def outline (text : String) : Outline := (reading text).outline

end AgentScript.Script
