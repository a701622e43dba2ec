import AgentScript.Editing.Clock
import AgentScript.Proofs.Editing.Scenes
import AgentScript.Proofs.Editing.Stopping

/-!
# A clock follows one of the orders

`Clock` makes the moves of a session in one order, and lets the clock jump from deadline to deadline
in between.  What it makes of a session is one of the things that can happen while a user sleeps
(`sleep_steps`), and nothing is left to do when the sleep is over.  So a user who sleeps on such a
clock is a patient one.

`moveBound`, which limits the moves, is not less than the work of the session, and so the limit is
never what keeps the session from a move; `settle_of_move?` reads `settle` as a recursion along the
moves, in which it plays no part.
-/

namespace AgentScript.Editing.Session

variable {t : Converter} {manner : Manner} {s s' : Session} {c : Controller} {moves : List Move}
  {limit : Nat}

/-! ## The earliest task -/

lemma mem_of_earliest {tasks : List Task} {task : Task} (h : earliest tasks = some task) :
    task ∈ tasks := by
  induction tasks with
  | nil => cases h
  | cons first rest ih =>
    unfold earliest at h
    split at h
    next => exact Option.some.inj h ▸ List.mem_cons_self
    next other hother =>
      split at h
      next => exact Option.some.inj h ▸ List.mem_cons_self
      next => exact List.mem_cons_of_mem _ (ih (hother.trans h))

lemma tasks_eq_nil_of_earliest {tasks : List Task} (h : earliest tasks = none) : tasks = [] := by
  cases tasks with
  | nil => rfl
  | cons first rest =>
    unfold earliest at h
    split at h
    next => cases h
    next => split at h <;> cases h

lemma deadline_le_of_earliest {tasks : List Task} {task other : Task}
    (h : earliest tasks = some task) (hmem : other ∈ tasks) : task.deadline ≤ other.deadline := by
  induction tasks generalizing task with
  | nil => cases h
  | cons first rest ih =>
    unfold earliest at h
    split at h
    next hnone =>
      cases h
      rw [tasks_eq_nil_of_earliest hnone, List.mem_singleton] at hmem
      exact hmem ▸ Nat.le_refl _
    next next hnext =>
      have hrest (hmem : other ∈ rest) : next.deadline ≤ other.deadline := ih hnext hmem
      split at h
      next hle =>
        cases h
        obtain rfl | hmem := List.mem_cons.1 hmem
        · exact Nat.le_refl _
        · exact hle.trans (hrest hmem)
      next hlt =>
        cases h
        obtain rfl | hmem := List.mem_cons.1 hmem
        · exact (Nat.not_le.1 hlt).le
        · exact hrest hmem

/-! ## The next move -/

/-- A session that handles commands and timers, and has none to handle. -/
structure Idle (s : Session) : Prop where
  running : s.running = true
  held : s.held = true
  commands : s.commands = []
  fired : s.fired = []

lemma Idle.rests (h : s.Idle) (t : Converter) (hahead : ∀ task ∈ s.tasks, s.now < task.deadline) :
    s.Rests t := by
  intro move s' step due
  cases step with
  | send | release | unlisten | wait => cases due
  | handle _ first =>
    rw [h.commands] at first
    cases first
  | desert _ _ unheld =>
    rw [h.held] at unheld
    cases unheld
  | fire _ first =>
    rw [h.fired] at first
    cases first
  | @wake task asleep => exact absurd due (Nat.not_le.2 (hahead task asleep))
  | finish stopped =>
    rw [h.running] at stopped
    cases stopped

/-- What the clock does next: a move whose time has come, or else it jumps to the next deadline and
wakes up the task. -/
inductive Tick (t : Converter) (limit : Nat) (s : Session) : Session → Prop where
  | move {move : Move} {s' : Session} (step : Step t s move s') (due : s.IsDue move) :
      Tick t limit s s'
  | jump {task : Task} (idle : s.Idle) (asleep : task ∈ s.tasks) (later : s.now < task.deadline)
      (first : ∀ other ∈ s.tasks, task.deadline ≤ other.deadline)
      (within : task.deadline ≤ limit) : Tick t limit s ({ s with now := task.deadline }.wake task)

lemma idle_of (hrunning : s.running = true) (hcommand : ¬ (!s.commands.isEmpty || !s.held) = true)
    (htimer : ¬ (!s.fired.isEmpty) = true) : s.Idle := by
  simp only [Bool.or_eq_true, not_or, Bool.not_eq_true, Bool.not_eq_false', List.isEmpty_iff]
    at hcommand htimer
  exact ⟨hrunning, hcommand.2, hcommand.1, htimer⟩

lemma tick_of_move? (h : s.move? t limit = some s') : Tick t limit s s' := by
  unfold move? at h
  split at h
  next => cases h
  next hunended =>
    rw [Bool.not_eq_true] at hunended
    split at h
    next hstopped =>
      cases h
      exact .move (.finish (Bool.not_eq_true' _ ▸ hstopped) hunended) trivial
    next hrunning =>
      have hrunning : s.running = true := by simpa using hrunning
      split at h
      next hcommand =>
        cases h
        cases hcommands : s.commands with
        | nil =>
          have hheld : s.held = false := by simpa [hcommands] using hcommand
          exact .move (.desert hrunning hcommands hheld) trivial
        | cons command => exact .move (.handle hrunning hcommands) trivial
      next hcommand =>
        split at h
        next htimer =>
          cases h
          cases hfired : s.fired with
          | nil => simp [hfired] at htimer
          | cons timer => exact .move (.fire hrunning hfired) trivial
        next htimer =>
          split at h
          next task htask =>
            split at h
            next hdue =>
              cases h
              obtain hlater | hnow := Nat.lt_or_ge s.now task.deadline
              · rw [Nat.max_eq_right hlater.le]
                exact .jump (idle_of hrunning hcommand htimer) (mem_of_earliest htask) hlater
                  (fun _ => deadline_le_of_earliest htask) hdue
              · rw [Nat.max_eq_left hnow]
                exact .move (.wake (mem_of_earliest htask)) hnow
            next => cases h
          next => cases h

/-- Where the clock has no next move, the session has nothing left to do before the limit. -/
lemma rests_of_move? (h : Runs t (spawn c) moves s) (hnone : s.move? t limit = none)
    (hlimit : s.now ≤ limit) : s.Rests t ∧ ∀ task ∈ s.tasks, limit < task.deadline := by
  unfold move? at hnone
  split at hnone
  next hended =>
    have hstopped := h.recorded.stopped_of_ended hended
    have htasks := (h.keepsTimers (keepsTimers_spawn c)).tasks_eq hstopped
    refine ⟨fun move s' step due => ?_, by rw [htasks]; nofun⟩
    cases step with
    | send | release | unlisten | wait => cases due
    | handle running | desert running | fire running =>
      rw [hstopped] at running
      cases running
    | wake asleep =>
      rw [htasks] at asleep
      cases asleep
    | finish _ unended =>
      rw [hended] at unended
      cases unended
  next =>
    split at hnone
    next => cases hnone
    next hrunning =>
      split at hnone
      next => cases hnone
      next hcommand =>
        split at hnone
        next => cases hnone
        next htimer =>
          have hidle : s.Idle := idle_of (by simpa using hrunning) hcommand htimer
          have hahead (task : Task) (hmem : task ∈ s.tasks) : limit < task.deadline := by
            cases hfirst : earliest s.tasks with
            | none =>
              rw [tasks_eq_nil_of_earliest hfirst] at hmem
              cases hmem
            | some first =>
              rw [hfirst] at hnone
              refine lt_of_not_ge fun hdue => ?_
              have hfirst := (deadline_le_of_earliest hfirst hmem).trans hdue
              dsimp only at hnone
              rw [if_pos hfirst] at hnone
              cases hnone
          exact ⟨hidle.rests t fun task hmem => hlimit.trans_lt (hahead task hmem), hahead⟩

/-! ## Many moves -/

lemma sum_map_le (timers : List Timer) {moves : Timer → Nat} {bound : Nat}
    (hbound : ∀ timer, moves timer ≤ bound) : (timers.map moves).sum ≤ bound * timers.length := by
  have hsum := (timers.map moves).sum_le_card_nsmul bound
    (by simpa using fun timer _ => hbound timer)
  rwa [List.length_map, smul_eq_mul, Nat.mul_comm] at hsum

lemma work_le_moveBound (s : Session) : s.work ≤ s.moveBound := by
  have hmoves (kind : TimerKind) : kind.moves ≤ 3 := by cases kind <;> decide
  have hasleep : load s.sleeping ≤ 4 * s.sleeping.length :=
    sum_map_le s.sleeping fun timer => Nat.succ_le_succ (hmoves timer.kind)
  have hfired : (s.fired.map (·.kind.moves)).sum ≤ 3 * s.fired.length :=
    sum_map_le s.fired fun timer => hmoves timer.kind
  have hrunning := s.running.toNat_le
  have hended := (!s.ended).toNat_le
  rw [sleeping, List.length_map] at hasleep
  unfold work sleeping moveBound
  omega

/-- A tick takes away from the work, and it happens between now and the limit. -/
lemma Tick.work_lt (h : Tick t limit s s') :
    s'.work < s.work ∧ s.now ≤ s'.now ∧ s'.now ≤ max s.now limit := by
  cases h with
  | move step due =>
    have hwork := step.passage.work_le
    rw [due.isInner, sent?_eq_none due.isInner] at hwork
    have hnow := step.passage.now_eq due.isInner
    exact ⟨hwork, hnow.ge, hnow.le.trans (le_max_left _ _)⟩
  | @jump task _ asleep later _ within =>
    have hwork := (Passage.wake (t := t) (s := { s with now := task.deadline }) asleep).work_le
    exact ⟨hwork, later.le, within.trans (le_max_right _ _)⟩

lemma makeMoves_of_rests (h : s.move? t limit = none) (n : Nat) : makeMoves t limit n s = s := by
  cases n with
  | zero => rfl
  | succ n => rw [makeMoves, h]

/-- Any two limits of the moves are as good as each other if there is not more work than that. -/
lemma makeMoves_eq {n m : Nat} (hn : s.work ≤ n) (hm : s.work ≤ m) :
    makeMoves t limit n s = makeMoves t limit m s := by
  induction n generalizing s m with
  | zero =>
    have hrests : s.move? t limit = none := by
      apply Option.eq_none_iff_forall_ne_some.2
      intro s' hmove
      have hwork := (tick_of_move? hmove).work_lt.1
      omega
    rw [makeMoves_of_rests hrests, makeMoves_of_rests hrests]
  | succ n ih =>
    cases hmove : s.move? t limit with
    | none => rw [makeMoves_of_rests hmove, makeMoves_of_rests hmove]
    | some s' =>
      have hwork := (tick_of_move? hmove).work_lt.1
      obtain ⟨m, rfl⟩ := Nat.exists_eq_add_of_le' (show 1 ≤ m by omega)
      simp only [makeMoves, hmove]
      exact ih (by omega) (by omega)

lemma settle_of_rests (h : s.move? t limit = none) :
    s.settle t limit = { s with now := max s.now limit } := by
  rw [settle, makeMoves_of_rests h]

lemma settle_of_move? (h : s.move? t limit = some s') : s.settle t limit = s'.settle t limit := by
  obtain ⟨hwork, hnow, hlimit⟩ := (tick_of_move? h).work_lt
  have htime : max s.now limit = max s'.now limit := by omega
  have hbound := s.work_le_moveBound
  obtain ⟨n, hn⟩ := Nat.exists_eq_add_of_le' (show 1 ≤ s.moveBound by omega)
  have hmoves : makeMoves t limit s.moveBound s = makeMoves t limit s'.moveBound s' := by
    rw [hn, makeMoves, h]
    exact makeMoves_eq (by omega) s'.work_le_moveBound
  rw [settle, settle, hmoves, htime]

lemma settle_steps (h : Runs t (spawn c) moves s) (manner : Manner) (hlimit : s.now ≤ limit)
    (turns : List Turn) :
    Scene.Steps t manner ⟨s, .sleep (limit - s.now) :: turns⟩
        ⟨s.settle t limit, .sleep 0 :: turns⟩ ∧
      (s.settle t limit).Rests t := by
  induction hwork : s.work using Nat.strong_induction_on generalizing s moves with
  | _ work ih =>
    cases hmove : s.move? t limit with
    | none =>
      obtain ⟨hrests, hahead⟩ := rests_of_move? h hmove hlimit
      obtain ⟨ms, rfl⟩ := Nat.exists_eq_add_of_le hlimit
      rw [settle_of_rests hmove, Nat.add_sub_cancel_left, max_eq_right hlimit]
      refine ⟨?_, hrests.later hahead⟩
      obtain rfl | hpos := Nat.eq_zero_or_pos ms
      · exact .refl
      · have hwait : Scene.Step t manner ⟨s, .sleep ms :: turns⟩
            ⟨{ s with now := s.now + ms }, .sleep (ms - ms) :: turns⟩ :=
          .wait hpos (Nat.le_refl ms) hrests (fun task hmem => (hahead task hmem).le) .wait
        rw [Nat.sub_self] at hwait
        exact .single hwait
    | some s' =>
      have htick := tick_of_move? hmove
      obtain ⟨hless, -, hnow⟩ := htick.work_lt
      rw [max_eq_right hlimit] at hnow
      rw [settle_of_move? hmove]
      cases htick with
      | move step due =>
        obtain ⟨hsteps, hrests⟩ := ih _ (hwork ▸ hless) (h.snoc step) hnow rfl
        rw [step.passage.now_eq due.isInner] at hsteps
        exact ⟨.head (.move step due) hsteps, hrests⟩
      | @jump task idle asleep later first within =>
        have htime : s.now + (task.deadline - s.now) = task.deadline :=
          Nat.add_sub_cancel' later.le
        have hleft : limit - s.now - (task.deadline - s.now) = limit - task.deadline := by omega
        have hwait : Step t s (.wait (task.deadline - s.now)) { s with now := task.deadline } := by
          have hwait : Step t s (.wait (task.deadline - s.now))
              { s with now := s.now + (task.deadline - s.now) } := .wait
          rwa [htime] at hwait
        have hwake : Step t { s with now := task.deadline } (.wake task)
            ({ s with now := task.deadline }.wake task) := .wake asleep
        obtain ⟨hsteps, hrests⟩ := ih _ (hwork ▸ hless) ((h.snoc hwait).snoc hwake) hnow rfl
        have hfirst : Scene.Step t manner ⟨s, .sleep (limit - s.now) :: turns⟩
            ⟨{ s with now := task.deadline }, .sleep (limit - task.deadline) :: turns⟩ := by
          rw [← hleft]
          refine .wait (Nat.sub_pos_of_lt later) (by omega) (idle.rests t fun other hmem =>
            later.trans_le (first other hmem)) (fun other hmem => ?_) hwait
          rw [htime]
          exact first other hmem
        exact ⟨.head hfirst (.head (.move hwake (Nat.le_refl _)) hsteps), hrests⟩

/-- What a clock makes of a session is one of the things that can happen while its user sleeps, and
nothing is left to do then. -/
theorem sleep_steps (h : Runs t (spawn c) moves s) (manner : Manner) (ms : Nat)
    (turns : List Turn) :
    Scene.Steps t manner ⟨s, .sleep ms :: turns⟩ ⟨s.sleep t ms, turns⟩ ∧
      (s.sleep t ms).Rests t := by
  obtain ⟨hsteps, hrests⟩ := settle_steps h manner (Nat.le_add_right s.now ms) turns
  rw [Nat.add_sub_cancel_left] at hsteps
  exact ⟨hsteps.tail .awake, hrests⟩

end AgentScript.Editing.Session
