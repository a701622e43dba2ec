import AgentScript.Editing.Session

/-!
# The moves of a session

What a session does next is not determined by its state.  It may handle the next command or the
next timer that has fired; any of its tasks may wake up, whatever its deadline; and meanwhile others
send commands, or go away.  `Session.Step` says which of these *moves* are possible and where they
lead, and `Session.Runs` strings moves together.  `Turns` gives the moves their time, and `Clock`
follows one of the strings.

The queues are first in, first out.  A task that wakes up hands in its timer once, and a task that
has been ended never does.
-/

namespace AgentScript.Editing

/-- What can happen to a session. -/
inductive Move where
  /-- Somebody sends a command. -/
  | send (command : Command)
  /-- The first command in the queue is handled. -/
  | handle (command : Command)
  /-- The queue is found empty, and nobody is left who could send a command. -/
  | desert
  /-- The first timer that has fired is handled. -/
  | fire (timer : Timer)
  /-- A task wakes up. -/
  | wake (task : Task)
  /-- The session, which has stopped, ends. -/
  | finish
  /-- The last one who could send commands goes away. -/
  | release
  /-- The one who takes the updates goes away. -/
  | unlisten
  /-- Time goes by. -/
  | wait (ms : Nat)
  deriving Repr, Inhabited

namespace Session

/-- A move that is possible, with the session before and after it. -/
inductive Step (t : Converter) : Session → Move → Session → Prop where
  | send {s s' : Session} {command : Command} (held : s.held = true)
      (sent : s.send command = .ok s') : Step t s (.send command) s'
  | handle {s : Session} {command : Command} {rest : List Command} (running : s.running = true)
      (first : s.commands = command :: rest) : Step t s (.handle command) (s.handleCommand t)
  | desert {s : Session} (running : s.running = true) (empty : s.commands = [])
      (unheld : s.held = false) : Step t s .desert (s.handleCommand t)
  | fire {s : Session} {timer : Timer} {rest : List Timer} (running : s.running = true)
      (first : s.fired = timer :: rest) : Step t s (.fire timer) (s.handleFired t)
  | wake {s : Session} {task : Task} (asleep : task ∈ s.tasks) : Step t s (.wake task) (s.wake task)
  | finish {s : Session} (stopped : s.running = false) (unended : s.ended = false) :
      Step t s .finish s.finish
  | release {s : Session} (held : s.held = true) : Step t s .release s.release
  | unlisten {s : Session} : Step t s .unlisten s.unlisten
  | wait {s : Session} {ms : Nat} : Step t s (.wait ms) { s with now := s.now + ms }

/-- A sequence of moves from a session to another, each possible after those before it. -/
inductive Runs (t : Converter) (s : Session) : List Move → Session → Prop where
  | nil : Runs t s [] s
  | snoc {s' s'' : Session} {moves : List Move} {move : Move} (before : Runs t s moves s')
      (last : Step t s' move s'') : Runs t s (moves ++ [move]) s''

end Session

end AgentScript.Editing
