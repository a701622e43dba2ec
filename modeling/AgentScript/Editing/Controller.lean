import AgentScript.Script.Equivalence
import AgentScript.Editing.Change
import AgentScript.Editing.Converter

/-!
# The controller of a document

A controller keeps the script and the graph of one document in step.  It is a state machine: every
input yields the next state and the *effects* its host has to carry out, the setting and stopping
of timers among them.  It never waits, and it never looks at a clock.

* A change of the script is carried over to the graph at once.
* A change of the graph is kept, and carried over to the script when the *debounce* timer fires.
  Further changes of the graph start that timer anew; a change of the script discards it.
* The script is only replaced if the new one is not equivalent to it.
* After carrying something over the controller is in a *phase* that names the direction, until the
  *grace* timer fires.  In the meantime a change of unknown author on the other side is taken for
  an echo.

Echoes are dropped, and so are timers that have been stopped or replaced.  A closed controller
drops everything.
-/

namespace AgentScript.Editing

/-- The direction in which something was carried over last, until the grace timer fires. -/
inductive Phase where
  | idle
  | fromText
  | fromGraph
  deriving DecidableEq, Repr, Inhabited

namespace Phase

def render : Phase → String
  | .idle => "idle"
  | .fromText => "syncing-from-text"
  | .fromGraph => "syncing-from-graph"

/-- Whether a change of unknown author on the given side is taken for an echo. -/
def presumesEcho : Phase → Side → Bool
  | .fromText, .graph => true
  | .fromGraph, .text => true
  | _, _ => false

end Phase

inductive TimerKind where
  /-- Ends a burst of changes of the graph. -/
  | debounce
  /-- Ends a phase. -/
  | grace
  deriving DecidableEq, Repr, Inhabited

/-- A timer that was set.  No two timers of a controller have the same token. -/
structure Timer where
  kind : TimerKind
  token : Nat
  deriving DecidableEq, Repr, Inhabited

/-- What the host of a controller has to do. -/
inductive Effect where
  /-- Show a new graph. -/
  | applyGraph (revision : Revision) (graph : Graph) (diagnostics : List Diagnostic)
  /-- Show a new script. -/
  | applyText (revision : Revision) (text : String)
  /-- Hand the timer in after the given number of milliseconds. -/
  | schedule (timer : Timer) (delay : Nat)
  /-- Do not hand the timer in. -/
  | cancel (timer : Timer)
  deriving Repr, Inhabited

/-- A use of the converter. -/
inductive Conversion where
  | ofText (text : String)
  | ofGraph (graph : Graph)
  deriving Repr, Inhabited

/-- The delays of the timers, in milliseconds. -/
structure Delays where
  debounce : Nat := 300
  grace : Nat := 50
  deriving DecidableEq, Repr, Inhabited

/-- A document as its controller knows it. -/
structure Document where
  text : String := ""
  graph : Graph := {}
  /-- What was found in the script when it was carried over last. -/
  diagnostics : List Diagnostic := []
  phase : Phase := .idle
  /-- The revision of the last update. -/
  revision : Revision := ⟨0⟩
  /-- Whether a change of the graph is still to be carried over. -/
  pending : Bool := false
  deriving Repr, Inhabited

/-- The state of a controller. -/
structure Controller where
  delays : Delays := {}
  document : Document := {}
  debounce : Option Timer := none
  grace : Option Timer := none
  /-- The token of the last timer that was set. -/
  lastToken : Nat := 0
  closed : Bool := false
  deriving Repr, Inhabited

/-- An input of a controller. -/
inductive Input where
  | change (event : ReportedChange)
  | fire (timer : Timer)
  | close
  deriving Repr, Inhabited

/-- What a step yields: the next state, what the host has to do, and how the converter was used. -/
structure Outcome where
  controller : Controller
  effects : List Effect := []
  conversions : List Conversion := []
  deriving Repr, Inhabited

namespace Controller

/-- A controller that has seen nothing. -/
def new (delays : Delays) : Controller := { delays }

/-- The effect of stopping a timer, if there is one. -/
def stop (timer : Option Timer) : List Effect := timer.toList.map .cancel

/-- The timer that is set next. -/
def nextTimer (c : Controller) (kind : TimerKind) : Timer := ⟨kind, c.lastToken + 1⟩

/-- Starts the grace timer, or starts it anew; the effects come after those given. -/
def beginGrace (c : Controller) (before : List Effect) (conversions : List Conversion) :
    Outcome :=
  let timer := c.nextTimer .grace
  { controller := { c with grace := some timer, lastToken := timer.token }
    effects := before ++ stop c.grace ++ [.schedule timer c.delays.grace]
    conversions }

/-- Carries a script over to the graph.  A change of the graph that is still to be carried over is
older and is given up. -/
def carryText (t : Converter) (c : Controller) (text : String) : Outcome :=
  let (graph, diagnostics) := t.toGraph text
  let revision := c.document.revision.next
  let document : Document :=
    { text, graph, diagnostics, phase := .fromText, revision
      pending := if c.debounce.isSome then false else c.document.pending }
  { c with document, debounce := none }.beginGrace
    (stop c.debounce ++ [Effect.applyGraph revision graph diagnostics]) [.ofText text]

/-- Keeps a graph until its burst of changes is over. -/
def keepGraph (c : Controller) (graph : Graph) : Outcome :=
  let timer := c.nextTimer .debounce
  { controller :=
      { c with
        document := { c.document with graph, pending := true }
        debounce := some timer
        lastToken := timer.token }
    effects := stop c.debounce ++ [.schedule timer c.delays.debounce] }

/-- Carries the graph over to the script, unless the script says the same already. -/
def carryGraph (t : Converter) (c : Controller) : Outcome :=
  let text := t.toText c.document.graph
  let document := { c.document with phase := .fromGraph }
  if Script.equivalent text document.text then
    { c with document }.beginGrace [] [.ofGraph document.graph]
  else
    let revision := document.revision.next
    { c with document := { document with revision, text } }.beginGrace
      [.applyText revision text] [.ofGraph document.graph]

/-- Whether a change is carried over or kept, and not dropped. -/
def accepts (c : Controller) (event : ReportedChange) : Bool :=
  !c.closed &&
    match event.author with
    | .user => true
    | .echo _ => false
    | .unknown => !c.document.phase.presumesEcho event.change.side

/-- A change that is reported. -/
def change (t : Converter) (c : Controller) (event : ReportedChange) : Outcome :=
  if c.accepts event then
    match event.change with
    | .text text => c.carryText t text
    | .graph graph => c.keepGraph graph
  else ⟨c, [], []⟩

/-- A timer that is handed in. -/
def fire (t : Converter) (c : Controller) (timer : Timer) : Outcome :=
  if c.closed then ⟨c, [], []⟩
  else
    match timer.kind with
    | .debounce =>
      if c.debounce = some timer then
        { c with debounce := none, document := { c.document with pending := false } }.carryGraph t
      else ⟨c, [], []⟩
    | .grace =>
      if c.grace = some timer then
        ⟨{ c with grace := none, document := { c.document with phase := .idle } }, [], []⟩
      else ⟨c, [], []⟩

/-- The end of a document.  Its timers are stopped, and everything after it is dropped. -/
def close (c : Controller) : Outcome :=
  if c.closed then ⟨c, [], []⟩
  else
    { controller :=
        { c with
          closed := true
          document := { c.document with phase := .idle, pending := false }
          debounce := none
          grace := none }
      effects := stop c.debounce ++ stop c.grace }

/-- One input. -/
def step (t : Converter) (c : Controller) : Input → Outcome
  | .change event => c.change t event
  | .fire timer => c.fire t timer
  | .close => c.close

/-- A sequence of inputs, with all effects and conversions in their order. -/
def run (t : Converter) (c : Controller) : List Input → Outcome
  | [] => ⟨c, [], []⟩
  | input :: rest =>
    let first := c.step t input
    let later := run t first.controller rest
    ⟨later.controller, first.effects ++ later.effects, first.conversions ++ later.conversions⟩

end Controller

end AgentScript.Editing
