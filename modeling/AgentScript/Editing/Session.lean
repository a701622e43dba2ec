import AgentScript.Editing.Controller

/-!
# Sessions

A session is the host of a controller.  It takes commands from a queue, lets tasks sleep for the
timers, and publishes the updates its controller asks for.

A session makes one *move* at a time: it handles the first command in its queue, it handles the
first timer that has fired, or one of its sleeping tasks wakes up and puts its timer into the queue
of fired ones.  Which of the possible moves comes next is left open; `Clock` takes them in one
fixed order.

A session stops at a command to close it, or when nobody is left who could send commands and all
of them have been handled.  Its tasks are stopped with it.  It then *ends*, and its queues end with
it.  Commands that are still in the queue then, those among them that came after the stop, are never
handled: who waits for an answer to one learns that there will be none.
-/

namespace AgentScript.Editing

/-- What a view has to show. -/
inductive Update where
  | graph (revision : Revision) (graph : Graph) (diagnostics : List Diagnostic)
  | text (revision : Revision) (text : String)
  deriving Repr, Inhabited

/-- What can be asked of a session.  A ticket tells to whom an answer goes. -/
inductive Command where
  | change (event : ReportedChange)
  | snapshot (ticket : Nat)
  | close (ticket : Nat)
  deriving Repr, Inhabited

/-- Why a call to a session failed. -/
inductive CallError where
  /-- The session had ended before the call. -/
  | closed
  /-- The session ended before it answered. -/
  | noReply
  deriving DecidableEq, Repr, Inhabited

def CallError.message : CallError → String
  | .closed => "The document session has been closed"
  | .noReply => "The document session task stopped before replying"

/-- The answer to a command that asks for one. -/
inductive Answer where
  | document (document : Document)
  | done
  | failed (error : CallError)
  deriving Repr, Inhabited

/-- A task that sleeps until a point in time and then hands in its timer. -/
structure Task where
  timer : Timer
  deadline : Nat
  deriving DecidableEq, Repr, Inhabited

structure Session where
  controller : Controller := {}
  /-- The timers with a task that has not been stopped and whose firing has not been handled. -/
  timers : List Timer := []
  /-- The sleeping tasks, in the order in which they were started. -/
  tasks : List Task := []
  /-- The timers that have fired and have not been handled. -/
  fired : List Timer := []
  /-- The commands that have not been handled. -/
  commands : List Command := []
  /-- The answers given so far. -/
  answers : List (Nat × Answer) := []
  /-- The updates published so far. -/
  updates : List Update := []
  /-- The uses of the converter so far. -/
  conversions : List Conversion := []
  /-- Whether commands and timers are still handled. -/
  running : Bool := true
  /-- Whether the session is over: its queues are gone, and its stream of updates has ended. -/
  ended : Bool := false
  /-- Whether somebody is left who could send commands. -/
  held : Bool := true
  /-- Whether somebody takes the updates. -/
  heard : Bool := true
  /-- The time. -/
  now : Nat := 0
  deriving Repr, Inhabited

namespace Session

/-- A session that hosts the given controller. -/
def spawn (controller : Controller) : Session := { controller }

def new (delays : Delays) : Session := spawn (.new delays)

/-! ## Effects -/

def publish (s : Session) (u : Update) : Session :=
  if s.heard then { s with updates := s.updates ++ [u] } else s

/-- Ends the task of a timer, if it has one. -/
def abort (s : Session) (timer : Timer) : Session :=
  { s with
    timers := s.timers.filter (· ≠ timer)
    tasks := s.tasks.filter (·.timer ≠ timer) }

/-- Carries out an effect. -/
def carryOut (s : Session) : Effect → Session
  | .applyGraph revision graph diagnostics => s.publish (.graph revision graph diagnostics)
  | .applyText revision text => s.publish (.text revision text)
  | .schedule timer delay =>
    let s := s.abort timer
    { s with timers := s.timers ++ [timer], tasks := s.tasks ++ [⟨timer, s.now + delay⟩] }
  | .cancel timer => if timer ∈ s.timers then s.abort timer else s

/-- The session after a step of its controller. -/
def follow (s : Session) (o : Outcome) : Session :=
  o.effects.foldl carryOut
    { s with controller := o.controller, conversions := s.conversions ++ o.conversions }

/-! ## Moves -/

/-- The stop: the controller is closed, and the tasks of the timers that are left are ended. -/
def shutDown (s : Session) : Session :=
  let s := s.follow s.controller.close
  { s with timers := [], tasks := s.tasks.filter (·.timer ∉ s.timers), running := false }

/-- The answer to a command that will not be handled. -/
def giveUp : Command → Option (Nat × Answer)
  | .change _ => none
  | .snapshot ticket => some (ticket, .failed .noReply)
  | .close ticket => some (ticket, .failed .noReply)

/-- The end of a session that has stopped: what is left in its queues is dropped. -/
def finish (s : Session) : Session :=
  { s with
    commands := []
    fired := []
    answers := s.answers ++ s.commands.filterMap giveUp
    ended := true }

/-- Handles the first command; without any, the session stops if nobody could send one. -/
def handleCommand (t : Converter) (s : Session) : Session :=
  match s.commands with
  | [] => if s.held then s else s.shutDown
  | .change event :: rest => { s with commands := rest }.follow (s.controller.change t event)
  | .snapshot ticket :: rest =>
    { s with
      commands := rest
      answers := s.answers ++ [(ticket, .document s.controller.document)] }
  | .close ticket :: rest =>
    let s := { s with commands := rest }.shutDown
    { s with answers := s.answers ++ [(ticket, Answer.done)] }

/-- Handles the first timer that has fired. -/
def handleFired (t : Converter) (s : Session) : Session :=
  match s.fired with
  | [] => s
  | timer :: rest =>
    { s with fired := rest, timers := s.timers.filter (· ≠ timer) }.follow
      (s.controller.fire t timer)

/-- A task wakes up. -/
def wake (s : Session) (task : Task) : Session :=
  { s with tasks := s.tasks.erase task, fired := s.fired ++ [task.timer] }

/-! ## Calls -/

/-- Puts a command into the queue of a session that has not ended. -/
def send (s : Session) (command : Command) : Except CallError Session :=
  if s.ended then .error .closed else .ok { s with commands := s.commands ++ [command] }

/-- The answer that was given to a ticket. -/
def answerTo (s : Session) (ticket : Nat) : Option Answer := s.answers.lookup ticket

/-- The last one who could send commands is gone. -/
def release (s : Session) : Session := { s with held := false }

/-- The one who took the updates is gone. -/
def unlisten (s : Session) : Session := { s with heard := false }

end Session

end AgentScript.Editing
