import AgentScript.Editing.Moves
import Mathlib.Logic.Relation

/-!
# Turns on a clock

A user takes turns with a session: it changes the graph, and it sleeps.  `Scene.Step` says what can
happen next between the two on a clock that stands still as long as there is anything to do.

* A task wakes up when its deadline has come, and not before.
* Time goes by only while the user sleeps and the session has nothing left to do, and it does not
  pass the deadline of a task.
* What can happen at one point in time can happen in any order.  A command that waits, a timer that
  has fired, a task whose deadline has come and a user whose sleep is over: each may be the next.

So it is open what comes first when the sleep of a user ends just at a deadline.  A *patient* user
does not let it come to that, and goes on only when the session has nothing left to do.

A session *ends* a sequence of turns when all of them are taken and nothing is left to do.
-/

namespace AgentScript.Editing

/-- What a user does, one thing after the other. -/
inductive Turn where
  /-- The user changes the graph. -/
  | edit (graph : Graph)
  /-- The user lets time go by. -/
  | sleep (ms : Nat)
  deriving Repr, Inhabited

/-- When a user goes on whose turn it is. -/
inductive Manner where
  /-- At any moment, before or after what the session has to do at that time. -/
  | free
  /-- When the session has nothing left to do. -/
  | patient
  deriving DecidableEq, Repr, Inhabited

/-- The command that reports a change of the graph by the user. -/
def Command.edit (graph : Graph) : Command := .change ⟨.user, .graph graph⟩

namespace Session

/-- Whether a move is one that the session makes by itself, and its time has come. -/
def IsDue (s : Session) : Move → Prop
  | .handle _ | .desert | .fire _ | .finish => True
  | .wake task => task.deadline ≤ s.now
  | .send _ | .release | .unlisten | .wait _ => False

/-- The session has nothing left to do before time goes by. -/
def Rests (t : Converter) (s : Session) : Prop := ∀ move s', Step t s move s' → ¬ s.IsDue move

end Session

/-- A session, and the turns that its user has not taken yet. -/
structure Scene where
  session : Session
  turns : List Turn

/-- What can happen next between a user and a session. -/
inductive Scene.Step (t : Converter) (manner : Manner) : Scene → Scene → Prop where
  /-- The session makes a move whose time has come. -/
  | move {s s' : Session} {move : Move} {turns : List Turn} (step : Session.Step t s move s')
      (due : s.IsDue move) : Step t manner ⟨s, turns⟩ ⟨s', turns⟩
  /-- The user changes the graph. -/
  | edit {s s' : Session} {graph : Graph} {turns : List Turn}
      (calm : manner = .patient → s.Rests t) (step : Session.Step t s (.send (.edit graph)) s') :
      Step t manner ⟨s, .edit graph :: turns⟩ ⟨s', turns⟩
  /-- Time goes by, and so much of the sleep of the user is over. -/
  | wait {s s' : Session} {ms whole : Nat} {turns : List Turn} (pos : 0 < ms) (within : ms ≤ whole)
      (calm : s.Rests t) (ahead : ∀ task ∈ s.tasks, s.now + ms ≤ task.deadline)
      (step : Session.Step t s (.wait ms) s') :
      Step t manner ⟨s, .sleep whole :: turns⟩ ⟨s', .sleep (whole - ms) :: turns⟩
  /-- The user, whose sleep is over, goes on. -/
  | awake {s : Session} {turns : List Turn} : Step t manner ⟨s, .sleep 0 :: turns⟩ ⟨s, turns⟩

/-- What can happen, one thing after the other. -/
abbrev Scene.Steps (t : Converter) (manner : Manner) : Scene → Scene → Prop :=
  Relation.ReflTransGen (Scene.Step t manner)

/-- A session after some turns, when nothing is left to do. -/
def Session.Ends (t : Converter) (manner : Manner) (s : Session) (turns : List Turn)
    (s' : Session) : Prop :=
  Scene.Steps t manner ⟨s, turns⟩ ⟨s', []⟩ ∧ s'.Rests t

end AgentScript.Editing
