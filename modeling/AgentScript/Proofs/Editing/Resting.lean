import AgentScript.Proofs.Editing.Tasks
import Mathlib.Algebra.Group.Action.Defs
import Mathlib.Algebra.GroupWithZero.Nat
import Mathlib.Algebra.Order.BigOperators.Group.List
import Mathlib.Algebra.Order.Group.Nat

/-!
# A session comes to rest

Some moves of a session are made by others: they send a command, or go away.  The *inner* moves are
those that the session makes by itself.  It cannot go on with them for ever, since what they lead to
is limited.  A graph starts a debounce timer, a debounce timer starts a grace timer, and a grace
timer starts nothing; so handling a command is followed by four moves at most.

`work` counts the inner moves that are still ahead in this way, the stop and the end among them.
Every inner move takes away from it, and only a command that is sent adds to it
(`Passage.work_le`).
-/

namespace AgentScript.Editing

/-- The command that a move puts into the queue. -/
def Move.sent? : Move → Option Command
  | .send command => some command
  | .handle _ | .desert | .fire _ | .wake _ | .finish | .release | .unlisten | .wait _ => none

/-- The commands that are sent during some moves, in the order of the queue. -/
def sent (moves : List Move) : List Command := moves.filterMap Move.sent?

lemma sent_concat (moves : List Move) (move : Move) :
    sent (moves ++ [move]) = sent moves ++ move.sent?.toList :=
  filterMap_concat Move.sent? moves move

lemma sent?_eq_none {move : Move} (hinner : move.isInner = true) : move.sent? = none := by
  cases move with
  | send | release | unlisten | wait => cases hinner
  | handle | desert | fire | wake | finish => rfl

/-- The inner moves that a timer which has fired can lead to, its own handling among them. -/
def TimerKind.moves : TimerKind → Nat
  | .debounce => 3
  | .grace => 1

/-- The inner moves that timers with a sleeping task can lead to. -/
def load (timers : List Timer) : Nat := (timers.map fun timer => timer.kind.moves + 1).sum

@[simp] lemma load_nil : load [] = 0 := rfl

@[simp] lemma load_append (first second : List Timer) :
    load (first ++ second) = load first + load second := by
  simp only [load, List.map_append, List.sum_append]

lemma load_sublist {first second : List Timer} (h : first.Sublist second) :
    load first ≤ load second :=
  (h.map _).sum_le_sum fun _ _ => Nat.zero_le _

namespace Controller

/-- The most that the timers which a step sets can lead to. -/
def allowance : Input → Nat
  | .change _ => 4
  | .fire timer => timer.kind.moves - 1
  | .close => 0

lemma Course.load_le {t : Converter} {c : Controller} {input : Input} {o : Outcome}
    (h : Course t c input o) : load (scheduled o.effects) ≤ allowance input := by
  cases h with
  | dropped => exact Nat.zero_le _
  | text =>
    rw [scheduled_carryText]
    exact Nat.le_add_right 2 2
  | graph =>
    rw [scheduled_keepGraph]
    exact Nat.le_refl 4
  | debounce _ hkind =>
    rw [scheduled_carryGraph, allowance, hkind]
    exact Nat.le_refl 2
  | grace => exact Nat.zero_le _
  | close => simp

end Controller

namespace Session

variable {t : Converter} {s s' : Session} {move : Move} {moves : List Move}

/-- An upper bound of the inner moves that are possible one after the other from here. -/
def work (s : Session) : Nat :=
  5 * s.commands.length + load s.sleeping + (s.fired.map (·.kind.moves)).sum +
    (s.running.toNat + (!s.ended).toNat)

/-! ## Effects -/

lemma load_carryOut_le (s : Session) (effect : Effect) :
    load (s.carryOut effect).sleeping ≤ load s.sleeping + load effect.scheduled?.toList := by
  have habort (timer : Timer) : load (s.abort timer).sleeping ≤ load s.sleeping := by
    rw [sleeping_abort]
    exact load_sublist List.filter_sublist
  cases effect with
  | applyGraph | applyText =>
    rw [carryOut, publish_eq]
    exact Nat.le_refl _
  | schedule timer delay =>
    rw [sleeping_schedule, load_append]
    exact Nat.add_le_add_right (habort timer) _
  | cancel timer =>
    obtain heq | ⟨-, heq⟩ := s.cancel_cases timer
    · rw [heq]
      exact habort timer
    · rw [heq]
      exact Nat.le_refl _

lemma load_foldl_carryOut_le (s : Session) (effects : List Effect) :
    load (effects.foldl carryOut s).sleeping ≤
      load s.sleeping + load (Controller.scheduled effects) := by
  induction effects generalizing s with
  | nil => exact Nat.le_refl _
  | cons effect rest ih =>
    rw [Controller.scheduled_cons, load_append, ← Nat.add_assoc]
    exact (ih _).trans (Nat.add_le_add_right (s.load_carryOut_le effect) _)

/-- A step of the controller adds no more work than the timers that it sets. -/
lemma work_follow_le (s : Session) (o : Outcome) :
    (s.follow o).work ≤ s.work + load (Controller.scheduled o.effects) := by
  have hload : load (s.follow o).sleeping ≤
      load s.sleeping + load (Controller.scheduled o.effects) := load_foldl_carryOut_le _ _
  simp only [work, follow_frame]
  omega

/-- The stop adds no work. -/
lemma work_shutDown_le (s : Session) : s.shutDown.work + s.running.toNat ≤ s.work := by
  have hfollow := s.work_follow_le s.controller.close
  rw [Controller.scheduled_close, load_nil, Nat.add_zero] at hfollow
  have hload : load s.shutDown.sleeping ≤ load (s.follow s.controller.close).sleeping :=
    load_sublist (List.filter_sublist.map _)
  simp only [work, shutDown_frame, follow_frame, Bool.toNat_false] at hfollow ⊢
  omega

/-! ## Moves -/

lemma work_answers (s : Session) (answers : List (Nat × Answer)) :
    work { s with answers } = s.work := rfl

/-- An inner move takes away from the work ahead, and a command that is sent adds five moves. -/
lemma Passage.work_le (h : Passage t s move s') :
    s'.work + move.isInner.toNat ≤ s.work + 5 * move.sent?.toList.length := by
  have hrest {command : Command} {rest : List Command} (first : s.commands = command :: rest) :
      s.work = work { s with commands := rest } + 5 := by
    simp only [work, sleeping, first, List.length_cons]
    omega
  cases h with
  | @send command held unended =>
    change work { s with commands := s.commands ++ [command] } + 0 ≤ s.work + 5
    simp only [work, sleeping, List.length_append, List.length_singleton]
    omega
  | @change event rest running first =>
    have hload := (Controller.course t s.controller (.change event)).load_le
    change _ ≤ 4 at hload
    have hfollow := work_follow_le { s with commands := rest }
      (s.controller.step t (.change event))
    change _ + 1 ≤ s.work
    rw [hrest first]
    omega
  | snapshot running first =>
    rw [hrest first]
    exact Nat.add_le_add_left (Nat.le_add_left 1 4) _
  | @close ticket rest running first =>
    have hshut := work_shutDown_le { s with commands := rest }
    rw [work_answers, hrest first]
    have hless := (Nat.le_add_right _ _).trans hshut
    exact (Nat.add_le_add hless (Nat.le_add_left 1 4)).trans (Nat.le_add_right _ _)
  | desert running =>
    have hshut := work_shutDown_le s
    rw [running] at hshut
    exact hshut
  | @fire timer rest running first =>
    have hload := (Controller.course t s.controller (.fire timer)).load_le
    change _ ≤ timer.kind.moves - 1 at hload
    have hpos : 0 < timer.kind.moves := by cases timer.kind <;> decide
    have hfollow := work_follow_le
      { s with fired := rest, timers := s.timers.filter (· ≠ timer) }
      (s.controller.step t (.fire timer))
    have hwork : s.work =
        work { s with fired := rest, timers := s.timers.filter (· ≠ timer) } +
          timer.kind.moves := by
      simp only [work, sleeping, first, List.map_cons, List.sum_cons]
      omega
    change _ + 1 ≤ s.work
    omega
  | @wake task asleep =>
    have hsum := List.sum_map_erase (fun task : Task => task.timer.kind.moves + 1) asleep
    change work { s with tasks := s.tasks.erase task, fired := s.fired ++ [task.timer] } + 1 ≤
      s.work
    simp only [work, sleeping, load, List.map_map, List.map_append, List.sum_append,
      List.map_singleton, List.sum_singleton, Function.comp_def]
    omega
  | finish stopped unended =>
    change work { s with commands := [], fired := [], ended := true, answers := _ } + 1 ≤ s.work
    simp only [work, sleeping, unended, List.length_nil, List.map_nil, List.sum_nil, Bool.not_true,
      Bool.not_false, Bool.toNat_true, Bool.toNat_false]
    omega
  | release | unlisten | wait => exact Nat.le_refl _

/-- A session makes no more inner moves than its work allows, and five for every command that it
is sent. -/
theorem Runs.work_le (h : Runs t s moves s') :
    s'.work + moves.countP Move.isInner ≤ s.work + 5 * (sent moves).length := by
  induction h with
  | nil => exact Nat.le_refl _
  | @snoc s' s'' moves move before last ih =>
    have hlast := last.passage.work_le
    have hcount : (moves ++ [move]).countP Move.isInner =
        moves.countP Move.isInner + move.isInner.toNat := by
      rw [List.countP_append, List.countP_singleton]
      cases move.isInner <;> rfl
    rw [hcount, sent_concat, List.length_append]
    omega

/-- A session that can make no move by itself has ended, or it waits for commands with nothing left
to do. -/
theorem ended_or_idle (hrests : ∀ move s', Step t s move s' → move.isInner = false) :
    s.tasks = [] ∧
      (s.running = false ∧ s.ended = true ∨
        s.running = true ∧ s.held = true ∧ s.commands = [] ∧ s.fired = []) := by
  refine ⟨List.eq_nil_iff_forall_not_mem.2 fun task asleep => ?_, ?_⟩
  · cases hrests _ _ (.wake asleep)
  cases hrunning : s.running with
  | false =>
    cases hended : s.ended with
    | false => cases hrests _ _ (.finish hrunning hended)
    | true => exact .inl ⟨rfl, rfl⟩
  | true =>
    have hcommands : s.commands = [] := by
      cases hcommands : s.commands with
      | nil => rfl
      | cons => cases hrests _ _ (.handle hrunning hcommands)
    have hfired : s.fired = [] := by
      cases hfired : s.fired with
      | nil => rfl
      | cons => cases hrests _ _ (.fire hrunning hfired)
    have hheld : s.held = true := by
      cases hheld : s.held with
      | true => rfl
      | false => cases hrests _ _ (.desert hrunning hcommands hheld)
    exact .inr ⟨rfl, hheld, hcommands, hfired⟩

end Session

end AgentScript.Editing
