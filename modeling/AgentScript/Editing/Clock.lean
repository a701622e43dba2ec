import AgentScript.Editing.Session

/-!
# A session on a clock

To play a session on a clock, one of the orders has to be taken that `Moves` and `Turns` leave open.
The one taken here is: first the commands, then the timers that have fired, and when there is
nothing left to handle, the task whose deadline comes first wakes up, if that deadline has come.  Of
tasks with one deadline, the one that was started first goes first.

`settle` makes all the moves up to a point in time, and the clock jumps from deadline to deadline in
between, so that every timer fires at its own deadline and what it starts counts from there.  A user
on this clock is a patient one: its sleep is over when nothing is left to do.
-/

namespace AgentScript.Editing.Session

/-- The task that wakes up first. -/
def earliest : List Task → Option Task
  | [] => none
  | task :: rest =>
    match earliest rest with
    | none => some task
    | some other => if task.deadline ≤ other.deadline then some task else some other

/-- The next move up to the given time, if there is any. -/
def move? (t : Converter) (limit : Nat) (s : Session) : Option Session :=
  if s.ended then none
  else if !s.running then some s.finish
  else if !s.commands.isEmpty || !s.held then some (s.handleCommand t)
  else if !s.fired.isEmpty then some (s.handleFired t)
  else
    match earliest s.tasks with
    | some task =>
      if task.deadline ≤ limit then some ({ s with now := max s.now task.deadline }.wake task)
      else none
    | none => none

/-- An upper bound of the number of moves.  A command starts at most one task, a debounce timer
starts a grace timer, and a grace timer starts nothing. -/
def moveBound (s : Session) : Nat :=
  5 * s.commands.length + 4 * s.tasks.length + 3 * s.fired.length + 2

/-- Makes moves up to the given time, at most as many as told. -/
def makeMoves (t : Converter) (limit : Nat) : Nat → Session → Session
  | 0, s => s
  | n + 1, s =>
    match s.move? t limit with
    | some s => makeMoves t limit n s
    | none => s

/-- Makes every move up to the given time, and sets the clock to it. -/
def settle (t : Converter) (limit : Nat) (s : Session) : Session :=
  { makeMoves t limit s.moveBound s with now := max s.now limit }

/-- Makes every move that is possible now. -/
def rest (t : Converter) (s : Session) : Session := s.settle t s.now

/-- Lets time go by. -/
def sleep (t : Converter) (ms : Nat) (s : Session) : Session := s.settle t (s.now + ms)

end AgentScript.Editing.Session
