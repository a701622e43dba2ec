import AgentScript.Editing.Moves
import AgentScript.Proofs.Editing.Courses

/-!
# What a session does for its controller

A session hands its controller an input with every command and every timer that it handles, and
carries out the effects.  So the moves of a session tell what its controller went through:
`inputs` reads a run of the controller off them, and along every sequence of moves the controller is
in the state in which that run ends, and the updates published are the ones that run asks for
(`Runs.controller_eq`, `Runs.updates_eq`).

Carrying out an effect touches the timers, the tasks and the updates of a session, and nothing else
(`carryOut_eq`).  `Passage` lists what the moves come to, one by one; what is said of all moves is
proved from this list.
-/

namespace AgentScript.Editing

/-- What a move hands to the controller. -/
def Move.input? : Move → Option Input
  | .handle (.change event) => some (.change event)
  | .handle (.snapshot _) => none
  | .handle (.close _) => some .close
  | .desert => some .close
  | .fire timer => some (.fire timer)
  | .send _ | .wake _ | .finish | .release | .unlisten | .wait _ => none

/-- What the controller is handed during some moves, in the order in which it is. -/
def inputs (moves : List Move) : List Input := moves.filterMap Move.input?

lemma inputs_cons (move : Move) (moves : List Move) :
    inputs (move :: moves) = move.input?.toList ++ inputs moves :=
  filterMap_cons_toList Move.input? move moves

lemma inputs_concat (moves : List Move) (move : Move) :
    inputs (moves ++ [move]) = inputs moves ++ move.input?.toList :=
  filterMap_concat Move.input? moves move

/-- Whether a session makes a move by itself. -/
def Move.isInner : Move → Bool
  | .handle _ | .desert | .fire _ | .wake _ | .finish => true
  | .send _ | .release | .unlisten | .wait _ => false

namespace Session

variable {t : Converter} {s s' : Session} {move : Move} {moves : List Move}

/-! ## Effects -/

lemma publish_eq (s : Session) (update : Update) :
    s.publish update = { s with updates := s.updates ++ if s.heard then [update] else [] } := by
  unfold publish
  split
  next => rfl
  next => rw [List.append_nil]

lemma cancel_cases (s : Session) (timer : Timer) :
    s.carryOut (.cancel timer) = s.abort timer ∨
      timer ∉ s.timers ∧ s.carryOut (.cancel timer) = s := by
  unfold carryOut
  dsimp only
  split
  next => exact .inl rfl
  next habsent => exact .inr ⟨habsent, rfl⟩

lemma carryOut_eq (s : Session) (effect : Effect) :
    ∃ timers tasks updates, s.carryOut effect = { s with timers, tasks, updates } := by
  cases effect with
  | applyGraph | applyText => exact ⟨_, _, _, publish_eq s _⟩
  | schedule timer delay => exact ⟨_, _, _, rfl⟩
  | cancel timer =>
    obtain heq | ⟨-, heq⟩ := s.cancel_cases timer
    · exact ⟨_, _, _, heq⟩
    · exact ⟨_, _, _, heq⟩

lemma foldl_carryOut_eq (s : Session) (effects : List Effect) :
    ∃ timers tasks updates, effects.foldl carryOut s = { s with timers, tasks, updates } := by
  induction effects generalizing s with
  | nil => exact ⟨_, _, _, rfl⟩
  | cons effect rest ih =>
    obtain ⟨timers, tasks, updates, hfirst⟩ := carryOut_eq s effect
    obtain ⟨timers', tasks', updates', hrest⟩ := ih (s.carryOut effect)
    exact ⟨timers', tasks', updates', by rw [List.foldl_cons, hrest, hfirst]⟩

lemma follow_eq (s : Session) (o : Outcome) :
    ∃ timers tasks updates, s.follow o =
      { s with
        controller := o.controller
        conversions := s.conversions ++ o.conversions
        timers, tasks, updates } := by
  obtain ⟨timers, tasks, updates, heq⟩ := foldl_carryOut_eq
    { s with controller := o.controller, conversions := s.conversions ++ o.conversions } o.effects
  exact ⟨timers, tasks, updates, heq⟩

/-- What a step of the controller leaves of a session. -/
@[simp] lemma follow_frame (s : Session) (o : Outcome) :
    (s.follow o).controller = o.controller ∧ (s.follow o).commands = s.commands ∧
      (s.follow o).fired = s.fired ∧ (s.follow o).answers = s.answers ∧
      (s.follow o).running = s.running ∧ (s.follow o).ended = s.ended ∧
      (s.follow o).held = s.held ∧ (s.follow o).heard = s.heard ∧ (s.follow o).now = s.now ∧
      (s.follow o).conversions = s.conversions ++ o.conversions := by
  obtain ⟨timers, tasks, updates, heq⟩ := s.follow_eq o
  rw [heq]
  exact ⟨rfl, rfl, rfl, rfl, rfl, rfl, rfl, rfl, rfl, rfl⟩

@[simp] lemma shutDown_frame (s : Session) :
    s.shutDown.controller = s.controller.close.controller ∧ s.shutDown.commands = s.commands ∧
      s.shutDown.fired = s.fired ∧ s.shutDown.answers = s.answers ∧
      s.shutDown.running = false ∧ s.shutDown.ended = s.ended ∧
      s.shutDown.held = s.held ∧ s.shutDown.heard = s.heard ∧ s.shutDown.now = s.now ∧
      s.shutDown.conversions = s.conversions ∧ s.shutDown.timers = [] := by
  have hframe := s.follow_frame s.controller.close
  simp only [shutDown, hframe, Controller.conversions_close, List.append_nil, and_self]

/-! ## Updates -/

/-- The updates among those published that arrive at a view. -/
def arriving (s : Session) (updates : List Update) : List Update :=
  if s.heard then updates else []

@[simp] lemma arriving_nil (s : Session) : s.arriving [] = [] := ite_self []

lemma arriving_append (s : Session) (first second : List Update) :
    s.arriving (first ++ second) = s.arriving first ++ s.arriving second := by
  unfold arriving
  split
  next => rfl
  next => rfl

lemma carryOut_updates (s : Session) (effect : Effect) :
    (s.carryOut effect).updates = s.updates ++ s.arriving effect.update?.toList := by
  cases effect with
  | applyGraph | applyText =>
    rw [carryOut, publish_eq]
    rfl
  | schedule =>
    rw [Effect.update?, Option.toList_none, arriving_nil, List.append_nil]
    rfl
  | cancel timer =>
    rw [Effect.update?, Option.toList_none, arriving_nil, List.append_nil]
    obtain heq | ⟨-, heq⟩ := s.cancel_cases timer
    · rw [heq]
      rfl
    · rw [heq]

lemma foldl_carryOut_updates (s : Session) (effects : List Effect) :
    (effects.foldl carryOut s).updates = s.updates ++ s.arriving (Controller.updates effects) := by
  induction effects generalizing s with
  | nil =>
    rw [Controller.updates, List.filterMap_nil, arriving_nil, List.append_nil]
    rfl
  | cons effect rest ih =>
    obtain ⟨timers, tasks, updates, hfirst⟩ := carryOut_eq s effect
    have hsame : (s.carryOut effect).arriving = s.arriving := by
      rw [hfirst]
      rfl
    rw [List.foldl_cons, ih, carryOut_updates, hsame, List.append_assoc, ← arriving_append,
      Controller.updates_cons]

@[simp] lemma follow_updates (s : Session) (o : Outcome) :
    (s.follow o).updates = s.updates ++ s.arriving (Controller.updates o.effects) :=
  foldl_carryOut_updates _ _

/-- Stopping a session publishes nothing. -/
@[simp] lemma shutDown_updates (s : Session) : s.shutDown.updates = s.updates := by
  have hupdates := s.follow_updates s.controller.close
  rw [Controller.updates_close, arriving_nil, List.append_nil] at hupdates
  exact hupdates

/-! ## Moves -/

/-- What the moves come to. -/
inductive Passage (t : Converter) (s : Session) : Move → Session → Prop where
  | send {command : Command} (held : s.held = true) (unended : s.ended = false) :
      Passage t s (.send command) { s with commands := s.commands ++ [command] }
  | change {event : ReportedChange} {rest : List Command} (running : s.running = true)
      (first : s.commands = .change event :: rest) :
      Passage t s (.handle (.change event))
        ({ s with commands := rest }.follow (s.controller.step t (.change event)))
  | snapshot {ticket : Nat} {rest : List Command} (running : s.running = true)
      (first : s.commands = .snapshot ticket :: rest) :
      Passage t s (.handle (.snapshot ticket))
        { s with
          commands := rest
          answers := s.answers ++ [(ticket, .document s.controller.document)] }
  | close {ticket : Nat} {rest : List Command} (running : s.running = true)
      (first : s.commands = .close ticket :: rest) :
      Passage t s (.handle (.close ticket))
        { { s with commands := rest }.shutDown with answers := s.answers ++ [(ticket, .done)] }
  | desert (running : s.running = true) (empty : s.commands = []) (unheld : s.held = false) :
      Passage t s .desert s.shutDown
  | fire {timer : Timer} {rest : List Timer} (running : s.running = true)
      (first : s.fired = timer :: rest) :
      Passage t s (.fire timer)
        ({ s with fired := rest, timers := s.timers.filter (· ≠ timer) }.follow
          (s.controller.step t (.fire timer)))
  | wake {task : Task} (asleep : task ∈ s.tasks) : Passage t s (.wake task) (s.wake task)
  | finish (stopped : s.running = false) (unended : s.ended = false) :
      Passage t s .finish s.finish
  | release (held : s.held = true) : Passage t s .release s.release
  | unlisten : Passage t s .unlisten s.unlisten
  | wait {ms : Nat} : Passage t s (.wait ms) { s with now := s.now + ms }

lemma send_eq_ok {command : Command} (h : s.send command = .ok s') :
    s.ended = false ∧ s' = { s with commands := s.commands ++ [command] } := by
  unfold send at h
  split at h
  next => cases h
  next hopen => exact ⟨Bool.not_eq_true _ ▸ hopen, (Except.ok.inj h).symm⟩

lemma passage_handle {command : Command} {rest : List Command} (running : s.running = true)
    (first : s.commands = command :: rest) :
    Passage t s (.handle command) (s.handleCommand t) := by
  rw [handleCommand, first]
  cases command with
  | change event => exact .change running first
  | snapshot ticket => exact .snapshot running first
  | close ticket =>
    have hclose := Passage.close (t := t) running first
    simp only [shutDown_frame] at hclose ⊢
    exact hclose

/-- Every possible move comes to one of these. -/
theorem Step.passage (h : Step t s move s') : Passage t s move s' := by
  cases h with
  | send held sent =>
    obtain ⟨hunended, rfl⟩ := send_eq_ok sent
    exact .send held hunended
  | handle running first => exact passage_handle running first
  | desert running empty unheld =>
    rw [handleCommand, empty]
    dsimp only
    rw [unheld, if_neg Bool.false_ne_true]
    exact .desert running empty unheld
  | fire running first =>
    rw [handleFired, first]
    exact .fire running first
  | wake asleep => exact .wake asleep
  | finish stopped unended => exact .finish stopped unended
  | release held => exact .release held
  | unlisten => exact .unlisten
  | wait => exact .wait

/-- The controller takes a step with every move that hands it an input, and only then. -/
lemma Passage.controller_eq (h : Passage t s move s') :
    s'.controller = (s.controller.run t move.input?.toList).controller := by
  cases h with
  | change | fire =>
    rw [(follow_frame _ _).1]
    rfl
  | close | desert => exact (shutDown_frame _).1
  | send | snapshot | wake | finish | release | unlisten | wait => rfl

/-- What a step of the controller shows is published. -/
lemma Passage.updates_eq (h : Passage t s move s') :
    s'.updates =
      s.updates ++
        s.arriving (Controller.updates (s.controller.run t move.input?.toList).effects) := by
  have hnone : s.updates = s.updates ++ s.arriving [] := by
    rw [arriving_nil, List.append_nil]
  cases h with
  | change | fire =>
    rw [follow_updates, Move.input?, Option.toList_some, Controller.run_singleton]
    rfl
  | close | desert =>
    rw [shutDown_updates, Move.input?, Option.toList_some, Controller.run_singleton]
    rw [Controller.step, Controller.updates_close]
    exact hnone
  | send | snapshot | wake | finish | release | unlisten | wait => exact hnone

/-- The moves that a session makes by itself take no time. -/
lemma Passage.now_eq (h : Passage t s move s') (hinner : move.isInner = true) : s'.now = s.now := by
  cases h with
  | change | fire | close | desert => simp
  | send | snapshot | wake | finish | release | unlisten => rfl
  | wait => cases hinner

/-- Nobody begins to take the updates later. -/
lemma Passage.heard_of_heard (h : Passage t s move s') (hheard : s'.heard = true) :
    s.heard = true := by
  cases h with
  | unlisten => cases hheard
  | change | fire | close | desert => simpa using hheard
  | send | snapshot | wake | finish | release | wait => exact hheard

/-! ## Runs -/

lemma Runs.cons {s'' : Session} (first : Step t s move s') (rest : Runs t s' moves s'') :
    Runs t s (move :: moves) s'' := by
  induction rest with
  | nil => exact Runs.nil.snoc first
  | snoc _ last ih => exact ih.snoc last

/-- What every move keeps, all of them keep. -/
lemma Runs.preserves {P : Session → Prop} (h : Runs t s moves s') (hstart : P s)
    (hmove : ∀ {before move after}, Passage t before move after → P before → P after) : P s' := by
  induction h with
  | nil => exact hstart
  | snoc _ last ih => exact hmove last.passage ih

lemma Runs.last (h : Runs t s (moves ++ [move]) s') :
    ∃ before, Runs t s moves before ∧ Step t before move s' := by
  generalize hall : moves ++ [move] = all at h
  cases h with
  | nil => simp at hall
  | snoc before last =>
    obtain ⟨rfl, hsame⟩ := List.append_inj' hall rfl
    cases hsame
    exact ⟨_, before, last⟩

/-- Every one of the moves is made between two sessions on the way. -/
lemma Runs.split {front back : List Move} (h : Runs t s (front ++ move :: back) s') :
    ∃ before after, Runs t s front before ∧ Step t before move after ∧ Runs t after back s' := by
  induction back using List.reverseRecOn generalizing s' with
  | nil =>
    obtain ⟨before, hfront, hstep⟩ := h.last
    exact ⟨before, s', hfront, hstep, .nil⟩
  | append_singleton back move' ih =>
    rw [← List.cons_append, ← List.append_assoc] at h
    obtain ⟨between, hall, hlast⟩ := h.last
    obtain ⟨before, after, hfront, hstep, hback⟩ := ih hall
    exact ⟨before, after, hfront, hstep, hback.snoc hlast⟩

/-- The controller of a session is where the inputs lead that it was handed. -/
lemma Runs.controller_eq (h : Runs t s moves s') :
    s'.controller = (s.controller.run t (inputs moves)).controller := by
  induction h with
  | nil => rfl
  | snoc _ last ih => rw [last.passage.controller_eq, ih, inputs_concat, Controller.run_append]

/-- As long as somebody takes them, the updates are those that the controller asked for. -/
lemma Runs.updates_eq (h : Runs t s moves s') (hheard : s'.heard = true) :
    s'.updates = s.updates ++ Controller.updates (s.controller.run t (inputs moves)).effects := by
  induction h with
  | nil => exact (List.append_nil _).symm
  | snoc before last ih =>
    have hstill := last.passage.heard_of_heard hheard
    rw [last.passage.updates_eq, ih hstill, arriving, if_pos hstill, before.controller_eq,
      inputs_concat, Controller.run_append, Controller.updates_append, List.append_assoc]

/-- Afterwards they stay as they are. -/
lemma Runs.updates_first (h : Runs t s moves s') :
    s'.updates <+:
      s.updates ++ Controller.updates (s.controller.run t (inputs moves)).effects := by
  induction h with
  | nil => exact List.prefix_append _ _
  | @snoc s' s'' moves move before last ih =>
    rw [last.passage.updates_eq, inputs_concat, Controller.run_append, Controller.updates_append,
      ← List.append_assoc]
    cases hheard : s'.heard with
    | true =>
      rw [before.updates_eq hheard, arriving, if_pos hheard, before.controller_eq]
    | false =>
      rw [arriving, hheard, if_neg Bool.false_ne_true, List.append_nil]
      exact ih.trans (List.prefix_append _ _)

end Session

end AgentScript.Editing
