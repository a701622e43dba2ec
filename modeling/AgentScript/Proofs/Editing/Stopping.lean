import AgentScript.Proofs.Editing.Resting

/-!
# A session stops cleanly

A session handles its commands in the order of its queue, up to the first close, or, if nobody is
left who could send one, until there are none left.  Either way it stops, and then its end is the
only move that it still makes.

The commands that are sent are split in two at the first close (`upToClose`, `behindClose`).  What a
session has handled, what is still in its queue and which answers it has given can all be read off
these two lists and the moves made (`Recorded`).  After the stop nothing is handled or published
(`Runs.still`), and there is no task to wake up, as `KeepsTimers` says.  That a session does get to
its end follows from the bound on its moves.
-/

namespace AgentScript.Editing

/-! ## Commands -/

def Command.isClose : Command → Bool
  | .close _ => true
  | .change _ | .snapshot _ => false

/-- To whom the answer to a command goes, if it asks for one. -/
def Command.ticket? : Command → Option Nat
  | .change _ => none
  | .snapshot ticket => some ticket
  | .close ticket => some ticket

/-- The commands up to the first close, with it. -/
def upToClose : List Command → List Command
  | [] => []
  | command :: rest => command :: if command.isClose then [] else upToClose rest

/-- The commands behind the first close. -/
def behindClose : List Command → List Command
  | [] => []
  | command :: rest => if command.isClose then rest else behindClose rest

lemma upToClose_append_behindClose (commands : List Command) :
    upToClose commands ++ behindClose commands = commands := by
  induction commands with
  | nil => rfl
  | cons command rest ih =>
    unfold upToClose behindClose
    split
    next => rfl
    next => rw [List.cons_append, ih]

lemma upToClose_append {front : List Command} (hopen : ∀ command ∈ front, command.isClose = false)
    (back : List Command) : upToClose (front ++ back) = front ++ upToClose back := by
  induction front with
  | nil => rfl
  | cons command rest ih =>
    obtain ⟨hfirst, hrest⟩ := List.forall_mem_cons.1 hopen
    rw [List.cons_append, upToClose, hfirst, if_neg Bool.false_ne_true, ih hrest]
    rfl

lemma upToClose_eq_self {commands : List Command}
    (hopen : ∀ command ∈ commands, command.isClose = false) : upToClose commands = commands := by
  have hwhole := upToClose_append hopen []
  rw [List.append_nil] at hwhole
  exact hwhole.trans (List.append_nil commands)

/-- Commands behind a close are cut off. -/
lemma upToClose_append_of_mem {front : List Command}
    (hclose : ∃ command ∈ front, command.isClose = true) (back : List Command) :
    upToClose (front ++ back) = upToClose front := by
  induction front with
  | nil => simp at hclose
  | cons command rest ih =>
    rw [List.cons_append, upToClose, upToClose]
    split
    next => rfl
    next hopen =>
      obtain ⟨closing, hmem, hcloses⟩ := hclose
      obtain rfl | hrest := List.mem_cons.1 hmem
      · exact absurd hcloses hopen
      · rw [ih ⟨closing, hrest, hcloses⟩]

/-! ## What the moves tell -/

/-- The command that a move handles. -/
def Move.handled? : Move → Option Command
  | .handle command => some command
  | .send _ | .desert | .fire _ | .wake _ | .finish | .release | .unlisten | .wait _ => none

/-- The commands that are handled during some moves, in the order in which they are. -/
def handled (moves : List Move) : List Command := moves.filterMap Move.handled?

lemma handled_concat (moves : List Move) (move : Move) :
    handled (moves ++ [move]) = handled moves ++ move.handled?.toList :=
  filterMap_concat Move.handled? moves move

/-- Whether a session stops with a move. -/
def Move.stops : Move → Bool
  | .handle command => command.isClose
  | .desert => true
  | .send _ | .fire _ | .wake _ | .finish | .release | .unlisten | .wait _ => false

/-- The answer that a controller in the given state has for a command which is handled. -/
def Controller.answer? (c : Controller) : Command → Option (Nat × Answer)
  | .change _ => none
  | .snapshot ticket => some (ticket, .document c.document)
  | .close ticket => some (ticket, .done)

/-- The answers to the commands that are handled, in their order.  A snapshot is answered with the
document as it is at that moment. -/
def Controller.answersTo (t : Converter) (c : Controller) : List Move → List (Nat × Answer)
  | [] => []
  | move :: rest =>
    (move.handled?.bind c.answer?).toList ++
      answersTo t (c.run t move.input?.toList).controller rest

lemma Controller.answersTo_concat (t : Converter) (c : Controller) (moves : List Move)
    (move : Move) :
    c.answersTo t (moves ++ [move]) =
      c.answersTo t moves ++
        (move.handled?.bind (c.run t (inputs moves)).controller.answer?).toList := by
  induction moves generalizing c with
  | nil => exact List.append_nil _
  | cons first rest ih =>
    rw [List.cons_append, answersTo, ih, answersTo, List.append_assoc, inputs_cons, run_append]

/-- Each command that is handled and asks for an answer gets one. -/
lemma Controller.map_fst_answersTo (t : Converter) (c : Controller) (moves : List Move) :
    (c.answersTo t moves).map Prod.fst = (handled moves).filterMap Command.ticket? := by
  induction moves generalizing c with
  | nil => rfl
  | cons move rest ih =>
    rw [answersTo, List.map_append, ih]
    cases move with
    | handle command =>
      cases command with
      | change | snapshot | close => rfl
    | send | desert | fire | wake | finish | release | unlisten | wait => rfl

namespace Session

variable {t : Converter} {c : Controller} {s s' : Session} {move : Move} {moves : List Move}

/-- Each command that is dropped and asks for an answer is given up. -/
lemma map_fst_giveUp (commands : List Command) :
    (commands.filterMap giveUp).map Prod.fst = commands.filterMap Command.ticket? := by
  induction commands with
  | nil => rfl
  | cons command rest ih =>
    rw [filterMap_cons_toList, filterMap_cons_toList, List.map_append, ih]
    cases command with
    | change | snapshot | close => rfl

/-- A session that was sent all these commands, has handled the given ones, and gave the given
answers to them. -/
structure Recorded (all past : List Command) (given : List (Nat × Answer)) (s : Session) : Prop where
  queued : s.ended = false → past ++ s.commands = all
  running : s.running = true → s.ended = false ∧ ∀ command ∈ past, command.isClose = false
  stopped : s.running = false → past = upToClose all
  cause : s.running = false → s.held = false ∨ ∃ command ∈ all, command.isClose = true
  answers : s.answers = given ++ if s.ended then (behindClose all).filterMap giveUp else []

namespace Recorded

variable {all past : List Command} {given : List (Nat × Answer)} {command : Command}

lemma answers_of_unended (h : s.Recorded all past given) (unended : s.ended = false) :
    s.answers = given := by
  have hanswers := h.answers
  rwa [unended, if_neg Bool.false_ne_true, List.append_nil] at hanswers

lemma stopped_of_ended (h : s.Recorded all past given) (hended : s.ended = true) :
    s.running = false := by
  by_contra hrunning
  rw [Bool.not_eq_false] at hrunning
  rw [(h.running hrunning).1] at hended
  cases hended

lemma skip (h : s.Recorded all past given) (hcommands : s'.commands = s.commands)
    (hrunning : s'.running = s.running) (hended : s'.ended = s.ended)
    (hanswers : s'.answers = s.answers) (hheld : s.held = false → s'.held = false) :
    s'.Recorded all past given where
  queued := hcommands ▸ hended ▸ h.queued
  running := hrunning ▸ hended ▸ h.running
  stopped := hrunning ▸ h.stopped
  cause hnot := (h.cause (hrunning ▸ hnot)).imp_left hheld
  answers := by rw [hanswers, hended, h.answers]

lemma send (h : s.Recorded all past given) (held : s.held = true) (unended : s.ended = false)
    (command : Command) :
    { s with commands := s.commands ++ [command] }.Recorded (all ++ [command]) past given := by
  have hclose (hnot : s.running = false) : ∃ closing ∈ all, closing.isClose = true := by
    obtain hunheld | hclose := h.cause hnot
    · rw [held] at hunheld
      cases hunheld
    · exact hclose
  constructor
  · intro _
    rw [← List.append_assoc, h.queued unended]
  · exact h.running
  · intro hnot
    rw [upToClose_append_of_mem (hclose hnot)]
    exact h.stopped hnot
  · intro hnot
    obtain ⟨closing, hmem, hcloses⟩ := hclose hnot
    exact .inr ⟨closing, List.mem_append_left _ hmem, hcloses⟩
  · rw [unended, if_neg Bool.false_ne_true, List.append_nil]
    exact h.answers_of_unended unended

/-- The first command in the queue goes over to those that were handled.  If it is a close, these
are all up to the first. -/
lemma handle {rest : List Command} (h : s.Recorded all past given) (running : s.running = true)
    (first : s.commands = command :: rest) (hcommands : s'.commands = rest)
    (hrunning : s'.running = !command.isClose) (hended : s'.ended = s.ended)
    (hanswers : s'.answers = s.answers ++ (s.controller.answer? command).toList) :
    s'.Recorded all (past ++ [command]) (given ++ (s.controller.answer? command).toList) := by
  obtain ⟨hunended, hopen⟩ := h.running running
  have hall : past ++ command :: rest = all := first ▸ h.queued hunended
  have hclose (hnot : s'.running = false) : command.isClose = true := by
    rwa [hrunning, Bool.not_eq_false'] at hnot
  constructor
  · intro _
    rw [hcommands, List.append_assoc]
    exact hall
  · intro hstill
    rw [hrunning, Bool.not_eq_true'] at hstill
    refine ⟨hended.trans hunended, ?_⟩
    rw [List.forall_mem_append, List.forall_mem_singleton]
    exact ⟨hopen, hstill⟩
  · intro hnot
    rw [← hall, upToClose_append hopen, upToClose, if_pos (hclose hnot)]
  · intro hnot
    exact .inr ⟨command, hall ▸ List.mem_append_right _ List.mem_cons_self, hclose hnot⟩
  · rw [hended, hunended, if_neg Bool.false_ne_true, List.append_nil, hanswers,
      h.answers_of_unended hunended]

/-- With an empty queue everything has been handled. -/
lemma past_eq (h : s.Recorded all past given) (running : s.running = true)
    (empty : s.commands = []) : past = all := by
  have hqueued := h.queued (h.running running).1
  rwa [empty, List.append_nil] at hqueued

lemma desert (h : s.Recorded all past given) (running : s.running = true) (empty : s.commands = [])
    (unheld : s.held = false) : s.shutDown.Recorded all past given := by
  obtain ⟨hunended, hopen⟩ := h.running running
  have hall := h.past_eq running empty
  constructor
  · simp [empty, hall]
  · simp
  · intro _
    rw [← hall, upToClose_eq_self hopen]
  · simp [unheld]
  · simpa using h.answers

/-- Those who wait behind the close learn that there will be no answer. -/
lemma finish (h : s.Recorded all past given) (stopped : s.running = false)
    (unended : s.ended = false) : s.finish.Recorded all past given := by
  have hrest : s.commands = behindClose all := by
    have hqueued := h.queued unended
    rw [h.stopped stopped] at hqueued
    exact List.append_cancel_left (hqueued.trans (upToClose_append_behindClose all).symm)
  refine ⟨nofun, fun hstill => ?_, h.stopped, h.cause, ?_⟩
  · change s.running = true at hstill
    rw [stopped] at hstill
    cases hstill
  · change s.answers ++ s.commands.filterMap giveUp = _
    rw [h.answers_of_unended unended, hrest]
    rfl

end Recorded

lemma Passage.recorded (h : Passage t s move s')
    (hrecorded : s.Recorded (sent moves) (handled moves) (c.answersTo t moves))
    (hcontroller : s.controller = (c.run t (inputs moves)).controller) :
    s'.Recorded (sent (moves ++ [move])) (handled (moves ++ [move]))
      (c.answersTo t (moves ++ [move])) := by
  rw [sent_concat, handled_concat, Controller.answersTo_concat, ← hcontroller]
  have hother (hsent : move.sent? = none) (hhandled : move.handled? = none)
      (hsame : s'.Recorded (sent moves) (handled moves) (c.answersTo t moves)) :
      s'.Recorded (sent moves ++ move.sent?.toList) (handled moves ++ move.handled?.toList)
        (c.answersTo t moves ++ (move.handled?.bind s.controller.answer?).toList) := by
    rw [hsent, hhandled]
    simpa only [Option.bind_none, Option.toList_none, List.append_nil] using hsame
  cases h with
  | @send command held unended =>
    simp only [Move.handled?, Option.bind_none, Option.toList_none, List.append_nil]
    exact hrecorded.send held unended command
  | @change event rest running first =>
    simp only [Move.sent?, Option.toList_none, List.append_nil]
    refine hrecorded.handle running first ?_ ?_ ?_ ?_
    all_goals simp [running, Command.isClose, Controller.answer?]
  | snapshot running first =>
    simp only [Move.sent?, Option.toList_none, List.append_nil]
    exact hrecorded.handle running first rfl running rfl rfl
  | @close ticket rest running first =>
    simp only [Move.sent?, Option.toList_none, List.append_nil]
    refine hrecorded.handle running first ?_ ?_ ?_ ?_
    all_goals simp [Command.isClose, Controller.answer?]
  | desert running empty unheld => exact hother rfl rfl (hrecorded.desert running empty unheld)
  | fire =>
    refine hother rfl rfl (hrecorded.skip ?_ ?_ ?_ ?_ ?_)
    all_goals simp
  | wake | unlisten | wait => exact hother rfl rfl (hrecorded.skip rfl rfl rfl rfl id)
  | release => exact hother rfl rfl (hrecorded.skip rfl rfl rfl rfl fun _ => rfl)
  | finish stopped unended => exact hother rfl rfl (hrecorded.finish stopped unended)

lemma Runs.recorded (h : Runs t (spawn c) moves s) :
    s.Recorded (sent moves) (handled moves) (c.answersTo t moves) := by
  induction h with
  | nil => exact ⟨fun _ => rfl, fun _ => ⟨rfl, nofun⟩, nofun, nofun, rfl⟩
  | snoc before last ih => exact last.passage.recorded ih before.controller_eq

/-- Commands are handled in the order of the queue, and none behind the first close. -/
lemma Recorded.in_order {all past : List Command} {given : List (Nat × Answer)}
    (h : s.Recorded all past given) : past <+: upToClose all := by
  cases hrunning : s.running with
  | false => rw [← h.stopped hrunning]
  | true =>
    obtain ⟨hunended, hopen⟩ := h.running hrunning
    rw [← h.queued hunended, upToClose_append hopen]
    exact List.prefix_append _ _

/-! ## The stop -/

/-- A session that stops does so without publishing anything. -/
lemma Passage.stop (h : Passage t s move s') (hstops : move.stops = true) :
    s.running = true ∧ s'.running = false ∧ s'.ended = s.ended ∧ s'.updates = s.updates ∧
      s'.conversions = s.conversions ∧ s'.controller = s.controller.close.controller := by
  cases h with
  | close running | desert running => simp [running]
  | send | change | snapshot | fire | wake | finish | release | unlisten | wait => cases hstops

/-- What has stopped can only end. -/
lemma Passage.still (h : Passage t s move s') (stopped : s.running = false) (hnone : s.tasks = []) :
    s'.running = false ∧ s'.tasks = [] ∧ s'.updates = s.updates ∧
      s'.conversions = s.conversions ∧ s'.controller = s.controller ∧
      (move.isInner = false ∧ s'.ended = s.ended ∨
        move = .finish ∧ s.ended = false ∧ s'.ended = true) := by
  cases h with
  | change running | snapshot running | close running | desert running | fire running =>
    rw [stopped] at running
    cases running
  | wake asleep =>
    rw [hnone] at asleep
    cases asleep
  | finish _ unended => exact ⟨stopped, hnone, rfl, rfl, rfl, .inr ⟨rfl, unended, rfl⟩⟩
  | send | release | unlisten | wait => exact ⟨stopped, hnone, rfl, rfl, rfl, .inl ⟨rfl, rfl⟩⟩

lemma Runs.still (h : Runs t s moves s') (stopped : s.running = false) (unended : s.ended = false)
    (hnone : s.tasks = []) :
    s'.running = false ∧ s'.tasks = [] ∧ s'.updates = s.updates ∧
      s'.conversions = s.conversions ∧ s'.controller = s.controller ∧
      moves.filter Move.isInner = if s'.ended then [.finish] else [] := by
  induction h with
  | nil => exact ⟨stopped, hnone, rfl, rfl, rfl, by rw [unended]; rfl⟩
  | snoc _ last ih =>
    obtain ⟨hstopped, hnone, hupdates, hconversions, hcontroller, hinner⟩ := ih
    obtain ⟨hstopped', hnone', hupdates', hconversions', hcontroller', hlast⟩ :=
      last.passage.still hstopped hnone
    refine ⟨hstopped', hnone', hupdates'.trans hupdates, hconversions'.trans hconversions,
      hcontroller'.trans hcontroller, ?_⟩
    rw [List.filter_append, hinner]
    obtain ⟨houter, hended⟩ | ⟨rfl, hbefore, hafter⟩ := hlast
    · rw [List.filter_singleton, houter, hended]
      exact List.append_nil _
    · rw [hbefore, hafter]
      rfl

lemma Passage.ended_of_ended (h : Passage t s move s') (hended : s.ended = true) :
    s'.ended = true := by
  cases h with
  | change | close | desert | fire => simpa using hended
  | send | snapshot | wake | release | unlisten | wait => exact hended
  | finish => rfl

lemma Runs.ended_of_finish (h : Runs t s moves s') (hfinish : .finish ∈ moves) :
    s'.ended = true := by
  obtain ⟨front, back, rfl⟩ := List.append_of_mem hfinish
  obtain ⟨before, after, -, hlast, hback⟩ := h.split
  cases hlast
  exact hback.preserves (P := fun s => s.ended = true) rfl Passage.ended_of_ended

/-- The stop changes neither the updates nor the conversions, and nothing does after it. -/
lemma Runs.quiet {front back : List Move} {stop : Move}
    (h : Runs t (spawn c) (front ++ stop :: back) s) (hstops : stop.stops = true) :
    ∃ before, Runs t (spawn c) front before ∧ s.running = false ∧ s.updates = before.updates ∧
      s.conversions = before.conversions ∧ s.controller = before.controller.close.controller ∧
      back.filter Move.isInner = if s.ended then [.finish] else [] := by
  obtain ⟨before, after, hfront, hstop, hback⟩ := h.split
  obtain ⟨hrunning, hstopped, hsame, hupdates, hconversions, hcontroller⟩ :=
    hstop.passage.stop hstops
  have hunended := hsame.trans (hfront.recorded.running hrunning).1
  have hnone := ((hfront.snoc hstop).keepsTimers (keepsTimers_spawn c)).tasks_eq hstopped
  obtain ⟨hstill, -, hupdates', hconversions', hcontroller', hinner⟩ :=
    hback.still hstopped hunended hnone
  exact ⟨before, hfront, hstill, hupdates'.trans hupdates, hconversions'.trans hconversions,
    hcontroller'.trans hcontroller, hinner⟩

/-- Nothing is sent when nobody is left. -/
lemma Passage.unheld (h : Passage t s move s') (hunheld : s.held = false) :
    s'.held = false ∧ move.sent? = none := by
  cases h with
  | send held | release held =>
    rw [hunheld] at held
    cases held
  | change | close | desert | fire => exact ⟨by simpa using hunheld, rfl⟩
  | snapshot | wake | finish | unlisten | wait => exact ⟨hunheld, rfl⟩

lemma Runs.unheld (h : Runs t s moves s') (hunheld : s.held = false) :
    s'.held = false ∧ sent moves = [] := by
  induction h with
  | nil => exact ⟨hunheld, rfl⟩
  | snoc _ last ih =>
    obtain ⟨hlast, hnone⟩ := last.passage.unheld ih.1
    rw [sent_concat, ih.2, hnone]
    exact ⟨hlast, rfl⟩

/-- When a session stops because nobody holds it any more, everything was handled. -/
lemma Runs.deserted {front back : List Move} (h : Runs t (spawn c) (front ++ .desert :: back) s) :
    s.held = false ∧ handled (front ++ .desert :: back) = sent (front ++ .desert :: back) := by
  obtain ⟨-, -, hstopped, -⟩ := h.quiet rfl
  obtain ⟨before, after, hfront, hdesert, hback⟩ := h.split
  cases hdesert.passage with
  | desert running empty unheld =>
    obtain ⟨hunheld, hnone⟩ := hback.unheld (by simpa using unheld)
    have hsent : sent (front ++ .desert :: back) = sent front ++ sent back :=
      List.filterMap_append
    have hrecorded := hfront.recorded
    have hopen := (hrecorded.running running).2
    rw [hrecorded.past_eq running empty] at hopen
    rw [h.recorded.stopped hstopped, hsent, hnone, List.append_nil, upToClose_eq_self hopen]
    exact ⟨hunheld, rfl⟩

/-- What it means that a session which was started with the given controller stops cleanly. -/
structure CleanStop (t : Converter) (c : Controller) (moves : List Move) (s : Session) : Prop where
  /-- Commands are handled in the order of the queue, and none behind the first close. -/
  in_order : handled moves <+: upToClose (sent moves)
  /-- None of these is left out: a session handles all of them before it stops. -/
  complete : s.running = false → handled moves = upToClose (sent moves)
  /-- Without a close it stops when nobody is left who could send one, and everything was handled. -/
  deserted : .desert ∈ moves → s.held = false ∧ handled moves = sent moves
  /-- A snapshot is answered with the document of that moment.  Those who wait for an answer to a
  command behind the close learn that there will be none. -/
  answers : s.answers =
    c.answersTo t moves ++ if s.ended then (behindClose (sent moves)).filterMap giveUp else []
  /-- So nobody goes without an answer. -/
  answered : s.ended = true → s.answers.map Prod.fst = (sent moves).filterMap Command.ticket?
  /-- With the stop and after it nothing is published or converted, the document stays closed, and
  of all that a session does by itself only the end is left. -/
  quiet : ∀ front stop back, moves = front ++ stop :: back → stop.stops = true →
    ∃ before, Runs t (spawn c) front before ∧ s.running = false ∧ s.updates = before.updates ∧
      s.conversions = before.conversions ∧ s.controller = before.controller.close.controller ∧
      back.filter Move.isInner = if s.ended then [.finish] else []
  /-- No task is left. -/
  no_tasks : s.running = false → s.tasks = [] ∧ s.timers = []
  /-- After the end the stream of updates is closed, and every call fails. -/
  calls_fail : .finish ∈ moves → s.running = false ∧ s.ended = true ∧
    ∀ command, s.send command = .error .closed
  /-- A session cannot go on for ever without being sent something, -/
  bounded : moves.countP Move.isInner ≤ 5 * (sent moves).length + 2
  /-- and once a close was sent, or nobody is left, it does not halt before its end. -/
  ends : (∀ move s', Step t s move s' → move.isInner = false) →
    (s.held = false ∨ ∃ command ∈ sent moves, command.isClose = true) → s.ended = true

/-- **A session stops cleanly**, whatever is sent to it and in whatever order its moves are made. -/
theorem stops_cleanly (t : Converter) (c : Controller) {moves : List Move} {s : Session}
    (h : Runs t (spawn c) moves s) : CleanStop t c moves s := by
  have hrecorded := h.recorded
  have hkeeps := h.keepsTimers (keepsTimers_spawn c)
  constructor
  · exact hrecorded.in_order
  · exact hrecorded.stopped
  · intro hdesert
    obtain ⟨front, back, rfl⟩ := List.append_of_mem hdesert
    exact h.deserted
  · exact hrecorded.answers
  · intro hended
    have hstopped := hrecorded.stopped_of_ended hended
    rw [hrecorded.answers, hended, if_pos rfl, List.map_append, Controller.map_fst_answersTo,
      map_fst_giveUp, hrecorded.stopped hstopped, ← List.filterMap_append,
      upToClose_append_behindClose]
  · rintro front stop back rfl hstops
    exact h.quiet hstops
  · exact fun hstopped => ⟨hkeeps.tasks_eq hstopped, hkeeps.stopped hstopped⟩
  · intro hfinish
    have hended := h.ended_of_finish hfinish
    exact ⟨hrecorded.stopped_of_ended hended, hended, fun command => if_pos hended⟩
  · have hwork := h.work_le
    have hspawn : (spawn c).work = 2 := rfl
    omega
  · intro hrests hcause
    obtain ⟨-, ⟨-, hended⟩ | ⟨hrunning, hheld, hempty, -⟩⟩ := ended_or_idle hrests
    · exact hended
    obtain hunheld | ⟨command, hmem, hclose⟩ := hcause
    · rw [hheld] at hunheld
      cases hunheld
    · have hopen := (hrecorded.running hrunning).2
      rw [hrecorded.past_eq hrunning hempty] at hopen
      rw [hopen command hmem] at hclose
      cases hclose

/-- A graph is sent, and its debounce timer fires; before that is handled, a close comes in between
two snapshots. -/
def closingMoves : List Move :=
  [.send (.change ⟨.user, .graph {}⟩), .handle (.change ⟨.user, .graph {}⟩),
    .wake ⟨⟨.debounce, 1⟩, 300⟩, .send (.snapshot 0), .send (.close 1), .send (.snapshot 2),
    .handle (.snapshot 0), .handle (.close 1), .finish]

/-- The graph is not carried over any more, and the second snapshot fails. -/
theorem stops_cleanly_closingMoves :
    ∃ s, Runs (.standard {}) (spawn (.new {})) closingMoves s ∧ s.updates = [] ∧
      s.conversions = [] ∧
      s.answers = [(0, .document { pending := true }), (1, .done), (2, .failed .noReply)] ∧
      CleanStop (.standard {}) (.new {}) closingMoves s := by
  have hrun : ∃ s, Runs (.standard {}) (spawn (.new {})) closingMoves s ∧ s.updates = [] ∧
      s.conversions = [] ∧
      s.answers = [(0, .document { pending := true }), (1, .done), (2, .failed .noReply)] :=
    ⟨_, .cons (.send rfl rfl) (.cons (.handle rfl rfl) (.cons (.wake (List.mem_singleton.2 rfl))
      (.cons (.send rfl rfl) (.cons (.send rfl rfl) (.cons (.send rfl rfl)
      (.cons (.handle rfl rfl) (.cons (.handle rfl rfl) (.cons (.finish rfl rfl) .nil)))))))),
      rfl, rfl, rfl⟩
  obtain ⟨s, hmoves, hupdates, hconversions, hanswers⟩ := hrun
  exact ⟨s, hmoves, hupdates, hconversions, hanswers, stops_cleanly (.standard {}) (.new {}) hmoves⟩

end Session

end AgentScript.Editing
