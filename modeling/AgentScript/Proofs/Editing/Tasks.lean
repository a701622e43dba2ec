import AgentScript.Proofs.Editing.Hosting

/-!
# Every timer has one task

A session remembers which of its timers are on the way.  Each of these is in one place only: a task
sleeps for it, or it has fired and waits to be handled.  A timer that has fired may be cancelled
before it is handled.  It then stays in the queue of fired timers, but it is on the way no longer,
and no later timer is taken for it, since each has a new token.

`Accounted` is the invariant, with a bound on the tokens for the sake of this last point.  It is
kept by every single effect (`Accounted.carryOut`), and so by all moves.  That the timers on the way
are those that the controller awaits follows from what `Tracks` says of any host, once carrying out
an effect is seen to do to the timers of a session what it does to the outstanding ones.
-/

namespace AgentScript.Editing.Session

variable {t : Converter} {s s' : Session} {move : Move} {moves : List Move} {last : Nat}

/-- The timers that a task sleeps for. -/
def sleeping (s : Session) : List Timer := s.tasks.map (·.timer)

/-- Every timer on the way is in one place, every task sleeps for a timer on the way, and no token
is larger than the given one. -/
structure Accounted (s : Session) (last : Nat) : Prop where
  nodup : s.timers.Nodup
  once : ∀ timer ∈ s.timers, s.sleeping.count timer + s.fired.count timer = 1
  mapped : ∀ timer ∈ s.sleeping, timer ∈ s.timers
  token_le : ∀ timer, timer ∈ s.timers ∨ timer ∈ s.fired → timer.token ≤ last

lemma sleeping_abort (s : Session) (timer : Timer) :
    (s.abort timer).sleeping = s.sleeping.filter (· ≠ timer) := by
  rw [sleeping, sleeping, List.filter_map]
  rfl

lemma sleeping_schedule (s : Session) (timer : Timer) (delay : Nat) :
    (s.carryOut (.schedule timer delay)).sleeping = (s.abort timer).sleeping ++ [timer] := by
  rw [sleeping, carryOut, List.map_append]
  rfl

namespace Accounted

lemma abort (h : s.Accounted last) (timer : Timer) : (s.abort timer).Accounted last where
  nodup := h.nodup.filter _
  once other hmem := by
    obtain ⟨hother, hne⟩ := List.mem_filter.1 hmem
    rw [sleeping_abort, List.count_filter (p := fun x => decide (x ≠ timer)) hne]
    exact h.once other hother
  mapped other hmem := by
    rw [sleeping_abort, List.mem_filter] at hmem
    exact List.mem_filter.2 ⟨h.mapped other hmem.1, hmem.2⟩
  token_le other := by
    rintro (hmem | hfired)
    · exact h.token_le other (.inl (List.mem_filter.1 hmem).1)
    · exact h.token_le other (.inr hfired)

/-- A timer with a new token can be neither on the way nor among those that have fired. -/
lemma schedule (h : s.Accounted last) {timer : Timer} (hnew : last < timer.token) (delay : Nat) :
    (s.carryOut (.schedule timer delay)).Accounted timer.token := by
  have hfired : timer ∉ s.fired := fun hmem =>
    absurd (h.token_le timer (.inr hmem)) (Nat.not_le.2 hnew)
  have habort := h.abort timer
  have hgone : timer ∉ (s.abort timer).timers := fun hmem =>
    of_decide_eq_true (List.mem_filter.1 hmem).2 rfl
  constructor
  · change ((s.abort timer).timers ++ [timer]).Nodup
    rw [← List.concat_eq_append]
    exact habort.nodup.concat hgone
  · intro other hmem
    rw [sleeping_schedule, List.count_append]
    obtain hother | hnew := List.mem_append.1 hmem
    · have hne : timer ≠ other := fun hsame => hgone (hsame ▸ hother)
      rw [List.count_singleton, beq_eq_false_iff_ne.2 hne]
      exact habort.once other hother
    · rw [List.mem_singleton.1 hnew, List.count_singleton_self,
        List.count_eq_zero.2 fun hmem => hgone (habort.mapped timer hmem)]
      change 0 + 1 + s.fired.count timer = 1
      rw [List.count_eq_zero.2 hfired]
  · intro other hmem
    rw [sleeping_schedule] at hmem
    obtain hother | hnew := List.mem_append.1 hmem
    · exact List.mem_append_left _ (habort.mapped other hother)
    · exact List.mem_append_right _ hnew
  · rintro other (hmem | hother)
    · obtain hother | hnew := List.mem_append.1 hmem
      · exact (habort.token_le other (.inl hother)).trans hnew.le
      · exact (congrArg Timer.token (List.mem_singleton.1 hnew)).le
    · exact (h.token_le other (.inr hother)).trans hnew.le

/-- What is published does not matter here. -/
lemma publish (h : s.Accounted last) (update : Update) : (s.publish update).Accounted last := by
  rw [publish_eq]
  exact ⟨h.nodup, h.once, h.mapped, h.token_le⟩

lemma carryOut_cancel (h : s.Accounted last) (timer : Timer) :
    (s.carryOut (.cancel timer)).Accounted last := by
  obtain heq | ⟨-, heq⟩ := s.cancel_cases timer
  · rw [heq]
    exact h.abort timer
  · rw [heq]
    exact h

/-- Effects that set timers with the next tokens can be carried out one by one. -/
lemma foldl_carryOut (h : s.Accounted last) {effects : List Effect} {count : Nat}
    (htokens : (Controller.scheduled effects).map (·.token) = List.range' (last + 1) count) :
    (effects.foldl carryOut s).Accounted (last + count) := by
  induction effects generalizing s last count with
  | nil =>
    have hzero : 0 = count := by simpa [Controller.scheduled] using congrArg List.length htokens
    rw [← hzero]
    exact h
  | cons effect rest ih =>
    cases effect with
    | applyGraph | applyText => exact ih (h.publish _) htokens
    | cancel timer => exact ih (h.carryOut_cancel timer) htokens
    | schedule timer delay =>
      cases count with
      | zero => cases htokens
      | succ count =>
        obtain ⟨htoken, hrest⟩ := List.cons.inj htokens
        change timer.token = last + 1 at htoken
        have hfirst := h.schedule (last.lt_succ_self.trans_eq htoken.symm) delay
        rw [htoken] at hfirst
        have hall := ih hfirst hrest
        rwa [Nat.add_assoc, Nat.add_comm 1] at hall

lemma follow {o : Outcome} {c : Controller} (h : s.Accounted c.lastToken)
    (hnumbered : Controller.Numbered c o.controller o.effects) :
    (s.follow o).Accounted o.controller.lastToken := by
  obtain ⟨count, htokens, hlast⟩ := hnumbered
  rw [hlast]
  have hsame : Accounted
      { s with controller := o.controller, conversions := s.conversions ++ o.conversions }
      c.lastToken := ⟨h.nodup, h.once, h.mapped, h.token_le⟩
  exact hsame.foldl_carryOut htokens

/-- A timer that fired and is on the way has no task any more. -/
lemma takeFired (h : s.Accounted last) {timer : Timer} {rest : List Timer}
    (first : s.fired = timer :: rest) :
    { s with fired := rest, timers := s.timers.filter (· ≠ timer) }.Accounted last where
  nodup := h.nodup.filter _
  once other hmem := by
    obtain ⟨hother, hne⟩ := List.mem_filter.1 hmem
    have honce := h.once other hother
    rw [first, List.count_cons_of_ne (of_decide_eq_true hne).symm] at honce
    exact honce
  mapped other hmem := by
    refine List.mem_filter.2 ⟨h.mapped other hmem, decide_eq_true ?_⟩
    rintro rfl
    have honce := h.once other (h.mapped other hmem)
    have hasleep : 0 < s.sleeping.count other := List.count_pos_iff.2 hmem
    rw [first, List.count_cons_self] at honce
    omega
  token_le other := by
    rintro (hmem | hfired)
    · exact h.token_le other (.inl (List.mem_filter.1 hmem).1)
    · exact h.token_le other (.inr (first ▸ List.mem_cons_of_mem timer hfired))

/-- A timer goes from its task to the queue of those that have fired. -/
lemma wake (h : s.Accounted last) {task : Task} (asleep : task ∈ s.tasks) :
    (s.wake task).Accounted last := by
  have hperm : s.sleeping.Perm (task.timer :: (s.wake task).sleeping) :=
    (List.perm_cons_erase asleep).map _
  have hmapped : task.timer ∈ s.timers := h.mapped _ (List.mem_map_of_mem asleep)
  refine ⟨h.nodup, fun other hmem => ?_, fun other hmem => ?_, ?_⟩
  · have honce := h.once other hmem
    rw [hperm.count_eq, List.count_cons] at honce
    change _ + (s.fired ++ [task.timer]).count other = 1
    rw [List.count_append, List.count_singleton]
    omega
  · exact h.mapped other (hperm.mem_iff.2 (List.mem_cons_of_mem _ hmem))
  · rintro other (hmem | hfired)
    · exact h.token_le other (.inl hmem)
    · obtain hold | hnew := List.mem_append.1 hfired
      · exact h.token_le other (.inr hold)
      · exact h.token_le other (.inl (List.mem_singleton.1 hnew ▸ hmapped))

end Accounted

/-! ## Moves -/

/-- What the session keeps of its timers: every one is accounted for, and none is left once it has
stopped. -/
structure KeepsTimers (s : Session) : Prop where
  accounted : s.Accounted s.controller.lastToken
  stopped : s.running = false → s.timers = []

lemma keepsTimers_spawn (c : Controller) : (spawn c).KeepsTimers where
  accounted := ⟨List.nodup_nil, nofun, nofun, by rintro timer (hmem | hmem) <;> cases hmem⟩
  stopped := nofun

lemma KeepsTimers.tasks_eq (h : s.KeepsTimers) (hstopped : s.running = false) : s.tasks = [] := by
  apply List.eq_nil_iff_forall_not_mem.2
  intro task hmem
  have hmapped := h.accounted.mapped _ (List.mem_map_of_mem hmem)
  rw [h.stopped hstopped] at hmapped
  cases hmapped

/-- The stop ends every task: those that are left have their timer on the way. -/
lemma Accounted.shutDown (h : s.Accounted s.controller.lastToken) (t : Converter) :
    s.shutDown.Accounted s.shutDown.controller.lastToken := by
  have hclose := h.follow (Controller.course_close t s.controller).numbered
  have hframe := s.shutDown_frame
  have hasleep (timer : Timer) : timer ∉ s.shutDown.sleeping := by
    intro hmem
    obtain ⟨task, htask, rfl⟩ := List.mem_map.1 hmem
    obtain ⟨hleft, hunmapped⟩ := List.mem_filter.1 htask
    exact of_decide_eq_true hunmapped (hclose.mapped _ (List.mem_map_of_mem hleft))
  refine ⟨List.nodup_nil, nofun, fun timer hmem => absurd hmem (hasleep timer), ?_⟩
  rw [hframe.1]
  rintro timer (hmem | hfired)
  · cases hmem
  · exact hclose.token_le timer (.inr hfired)

lemma Passage.keepsTimers (h : Passage t s move s') (hkeeps : s.KeepsTimers) :
    s'.KeepsTimers := by
  obtain ⟨haccounted, hstopped⟩ := hkeeps
  have hsame (commands : List Command) :
      { s with commands }.Accounted s.controller.lastToken :=
    ⟨haccounted.nodup, haccounted.once, haccounted.mapped, haccounted.token_le⟩
  cases h with
  | send | snapshot | release | unlisten | wait =>
    exact ⟨⟨haccounted.nodup, haccounted.once, haccounted.mapped, haccounted.token_le⟩, hstopped⟩
  | @change event rest running first =>
    have hnumbered := (Controller.course t s.controller (.change event)).numbered
    refine ⟨?_, fun hnot => ?_⟩
    · rw [(follow_frame _ _).1]
      exact (hsame rest).follow hnumbered
    · simp [running] at hnot
  | @close ticket rest running first =>
    have hshut := Accounted.shutDown (hsame rest) t
    exact ⟨⟨hshut.nodup, hshut.once, hshut.mapped, hshut.token_le⟩, fun _ => rfl⟩
  | desert => exact ⟨haccounted.shutDown t, fun _ => rfl⟩
  | @fire timer rest running first =>
    have hnumbered := (Controller.course t s.controller (.fire timer)).numbered
    refine ⟨?_, fun hnot => ?_⟩
    · rw [(follow_frame _ _).1]
      exact (haccounted.takeFired first).follow hnumbered
    · simp [running] at hnot
  | wake asleep => exact ⟨haccounted.wake asleep, hstopped⟩
  | finish stopped =>
    have hnone : s.timers = [] := hstopped stopped
    refine ⟨⟨haccounted.nodup, ?_, haccounted.mapped, ?_⟩, hstopped⟩
    · change ∀ timer ∈ s.timers, _
      rw [hnone]
      nofun
    · rintro timer (hmem | hfired)
      · exact haccounted.token_le timer (.inl hmem)
      · cases hfired

lemma Runs.keepsTimers (h : Runs t s moves s') (hkeeps : s.KeepsTimers) : s'.KeepsTimers :=
  h.preserves hkeeps Passage.keepsTimers

/-! ## Outstanding timers -/

lemma toFinset_abort (s : Session) (timer : Timer) :
    (s.abort timer).timers.toFinset = s.timers.toFinset.erase timer := by
  ext other
  simp [abort, and_comm]

/-- Carrying out an effect does to the timers on the way what it does to the outstanding ones. -/
lemma toFinset_carryOut (s : Session) (effect : Effect) :
    (s.carryOut effect).timers.toFinset = effect.applyTo s.timers.toFinset := by
  cases effect with
  | applyGraph | applyText =>
    rw [carryOut, publish_eq]
    rfl
  | schedule timer delay =>
    ext other
    change other ∈ ((s.abort timer).timers ++ [timer]).toFinset ↔
      other ∈ insert timer s.timers.toFinset
    rw [List.mem_toFinset, List.mem_append, ← List.mem_toFinset, toFinset_abort,
      List.mem_singleton, Finset.mem_erase, Finset.mem_insert, or_comm]
    constructor
    · rintro (hsame | ⟨-, hmem⟩)
      · exact .inl hsame
      · exact .inr hmem
    · rintro (hsame | hmem)
      · exact .inl hsame
      · exact (eq_or_ne other timer).imp_right fun hne => ⟨hne, hmem⟩
  | cancel timer =>
    obtain heq | ⟨habsent, heq⟩ := s.cancel_cases timer
    · rw [heq]
      exact toFinset_abort s timer
    · rw [heq, Effect.applyTo, Finset.erase_eq_of_notMem]
      rwa [List.mem_toFinset]

lemma toFinset_foldl_carryOut (s : Session) (effects : List Effect) :
    (effects.foldl carryOut s).timers.toFinset =
      effects.foldl Effect.applyTo s.timers.toFinset := by
  induction effects generalizing s with
  | nil => rfl
  | cons effect rest ih => rw [List.foldl_cons, List.foldl_cons, ih, toFinset_carryOut]

lemma tracks_follow {input : Input} {timers : List Timer}
    (htracks : s.controller.Tracks timers.toFinset)
    (htimers : s'.timers.toFinset = input.useUp timers.toFinset) :
    (s'.follow (s.controller.step t input)).controller.Tracks
      (s'.follow (s.controller.step t input)).timers.toFinset := by
  rw [(follow_frame _ _).1, follow, toFinset_foldl_carryOut]
  change (s.controller.step t input).controller.Tracks
    ((s.controller.step t input).effects.foldl Effect.applyTo s'.timers.toFinset)
  rw [htimers]
  exact htracks.step t input

lemma tracks_shutDown (htracks : s.controller.Tracks s.timers.toFinset) :
    s.shutDown.controller.Tracks s.shutDown.timers.toFinset := by
  have hframe := s.shutDown_frame
  have hclose := htracks.close
  rw [hclose.eq_empty_of_closed (Controller.close_closed _)] at hclose
  simp only [hframe]
  exact hclose

/-- The timers on the way are the outstanding ones. -/
lemma Passage.tracks (h : Passage t s move s')
    (htracks : s.controller.Tracks s.timers.toFinset) :
    s'.controller.Tracks s'.timers.toFinset := by
  cases h with
  | send | snapshot | wake | finish | release | unlisten | wait => exact htracks
  | change => exact tracks_follow htracks rfl
  | close => exact tracks_shutDown htracks
  | desert => exact tracks_shutDown htracks
  | @fire timer =>
    refine tracks_follow htracks ?_
    exact toFinset_abort s timer

lemma Runs.tracks (h : Runs t s moves s') (htracks : s.controller.Tracks s.timers.toFinset) :
    s'.controller.Tracks s'.timers.toFinset :=
  h.preserves (P := fun s => s.controller.Tracks s.timers.toFinset) htracks Passage.tracks

/-- **No timer is lost or duplicated.**  Take a session after any sequence of moves, and the inputs
that its controller was handed.

* The timers on the way are those that are outstanding after these inputs, and those that the
  controller awaits.
* Either one task sleeps for a timer on the way, or it is once among those that have fired, and
  never both.  Every task sleeps for a timer on the way.
* The controller is in the state in which it ends if it runs on these inputs, and the updates are
  those of that run, as long as somebody takes them. -/
theorem timers_accounted (t : Converter) (delays : Delays) {moves : List Move} {s : Session}
    (h : Runs t (.new delays) moves s) :
    let c := Controller.new delays
    let o := c.run t (inputs moves)
    s.timers.Nodup ∧
    (∀ timer, timer ∈ s.timers ↔ timer ∈ c.timersAfter t ∅ (inputs moves)) ∧
    (∀ timer, timer ∈ s.timers ↔
      s.controller.debounce = some timer ∨ s.controller.grace = some timer) ∧
    (∀ timer ∈ s.timers,
      (s.sleeping.count timer = 1 ∧ s.fired.count timer = 0) ∨
        (s.sleeping.count timer = 0 ∧ s.fired.count timer = 1)) ∧
    (∀ task ∈ s.tasks, task.timer ∈ s.timers) ∧
    s.controller = o.controller ∧
    s.updates <+: Controller.updates o.effects ∧
    (s.heard = true → s.updates = Controller.updates o.effects) := by
  have haccounted := (h.keepsTimers (keepsTimers_spawn _)).accounted
  have htracks : s.controller.Tracks s.timers.toFinset := h.tracks (Controller.tracks_new delays)
  have hrun := (Controller.tracks_new delays).run t (inputs moves)
  have hmem (timer : Timer) : timer ∈ s.timers ↔
      s.controller.debounce = some timer ∨ s.controller.grace = some timer := by
    rw [← List.mem_toFinset, htracks.mem_iff]
  refine ⟨haccounted.nodup, fun timer => ?_, hmem, fun timer htimer => ?_, fun task htask => ?_,
    h.controller_eq, h.updates_first, h.updates_eq⟩
  · rw [hmem, hrun.mem_iff, h.controller_eq]
    rfl
  · have honce := haccounted.once timer htimer
    omega
  · exact haccounted.mapped _ (List.mem_map_of_mem htask)

/-- A graph is sent, and its debounce timer fires; before that is handled, a script comes in and
cancels the timer. -/
def lateMoves : List Move :=
  [.send (.change ⟨.user, .graph {}⟩), .handle (.change ⟨.user, .graph {}⟩),
    .wake ⟨⟨.debounce, 1⟩, 300⟩, .send (.change ⟨.user, .text "agent A \x7b\n\x7d\n"⟩),
    .handle (.change ⟨.user, .text "agent A \x7b\n\x7d\n"⟩)]

/-- The timer that was cancelled is still among those that have fired, and on the way no more. -/
theorem timers_accounted_lateMoves :
    ∃ s, Runs (.standard {}) (.new {}) lateMoves s ∧ s.fired = [⟨.debounce, 1⟩] ∧
      s.timers = [⟨.grace, 2⟩] ∧
      ∀ timer ∈ s.timers,
        (s.sleeping.count timer = 1 ∧ s.fired.count timer = 0) ∨
          (s.sleeping.count timer = 0 ∧ s.fired.count timer = 1) := by
  have hrun : ∃ s, Runs (.standard {}) (.new {}) lateMoves s ∧ s.fired = [⟨.debounce, 1⟩] ∧
      s.timers = [⟨.grace, 2⟩] :=
    ⟨_, .cons (.send rfl rfl) (.cons (.handle rfl rfl) (.cons (.wake (List.mem_singleton.2 rfl))
      (.cons (.send rfl rfl) (.cons (.handle rfl rfl) .nil)))), rfl, rfl⟩
  obtain ⟨s, hmoves, hfired, htimers⟩ := hrun
  exact ⟨s, hmoves, hfired, htimers, (timers_accounted (.standard {}) {} hmoves).2.2.2.1⟩

end AgentScript.Editing.Session
