import AgentScript.Proofs.Editing.Agreement
import AgentScript.Proofs.Editing.Pauses
import AgentScript.Proofs.Editing.Tasks

/-!
# A session and its prospect

`Awaits` ties a session to its `Prospect`: the debounce timer on the way, in a task or among those
that have fired, is the one of the graph at hand, and it fires after the time that is left.  Every
step of the session and its user keeps the two together (`Awaits.step`), and what the step converts
was within the outlook before.

A grace timer that ends changes nothing about that, whether it comes before the debounce timer, at
the same time or after it (`Awaits.pass`).
-/

namespace AgentScript.Editing.Session

variable {t : Converter} {manner : Manner} {s s' : Session} {delay : Nat} {p : Prospect}
  {turns : List Turn}

/-! ## Tasks -/

/-- The tasks that are left once a timer is stopped and another is set. -/
lemma tasks_restart (hmapped : ∀ timer ∈ s.sleeping, timer ∈ s.timers) (stopped : Option Timer)
    (timer : Timer) (delay : Nat) :
    ∃ kept, kept.Sublist s.tasks ∧ (∀ task ∈ kept, stopped ≠ some task.timer) ∧
      ((Controller.stop stopped ++ [Effect.schedule timer delay]).foldl carryOut s).tasks =
        kept ++ [⟨timer, s.now + delay⟩] := by
  cases stopped with
  | none => exact ⟨_, List.filter_sublist, nofun, rfl⟩
  | some old =>
    have hcancel : (s.carryOut (.cancel old)).now = s.now ∧
        (s.carryOut (.cancel old)).tasks.Sublist s.tasks ∧
        ∀ task ∈ (s.carryOut (.cancel old)).tasks, old ≠ task.timer := by
      obtain heq | ⟨habsent, heq⟩ := s.cancel_cases old
      · rw [heq]
        refine ⟨rfl, List.filter_sublist, fun task hmem => Ne.symm ?_⟩
        exact of_decide_eq_true (List.mem_filter.1 hmem).2
      · rw [heq]
        refine ⟨rfl, List.Sublist.refl _, ?_⟩
        rintro task hmem rfl
        exact habsent (hmapped _ (List.mem_map_of_mem hmem))
    obtain ⟨hnow, hsub, hne⟩ := hcancel
    refine ⟨((s.carryOut (.cancel old)).abort timer).tasks, List.filter_sublist.trans hsub, ?_, ?_⟩
    · intro task hmem hsame
      exact hne task (List.mem_filter.1 hmem).1 (Option.some.inj hsame)
    · rw [← hnow]
      rfl

/-- A step of the controller that sets a timer anew ends the task of that kind and starts another;
every task then sleeps for a timer that the controller awaits, if every task did so before. -/
lemma tasks_follow {c : Controller} {o : Outcome} (kind : TimerKind) (shown : List Effect)
    (hmapped : ∀ timer ∈ s.sleeping, timer ∈ s.timers)
    (hawaited : ∀ task ∈ s.tasks, c.awaited task.timer.kind = some task.timer)
    (heffects : o.effects =
      shown ++ (Controller.stop (c.awaited kind) ++ [.schedule (c.nextTimer kind) delay]))
    (hshown : shown = [] ∨ ∃ revision text, shown = [Effect.applyText revision text])
    (hcontroller : ∀ other, o.controller.awaited other =
      if other = kind then some (c.nextTimer kind) else c.awaited other) :
    ∃ kept, kept.Sublist s.tasks ∧ (∀ task ∈ kept, task.timer.kind ≠ kind) ∧
      (s.follow o).tasks = kept ++ [⟨c.nextTimer kind, s.now + delay⟩] ∧
      ∀ task ∈ (s.follow o).tasks, o.controller.awaited task.timer.kind = some task.timer := by
  have hstart : ∃ updates, shown.foldl carryOut
      { s with controller := o.controller, conversions := s.conversions ++ o.conversions } =
      { s with
        controller := o.controller
        conversions := s.conversions ++ o.conversions
        updates } := by
    obtain rfl | ⟨revision, text, rfl⟩ := hshown
    · exact ⟨_, rfl⟩
    · exact ⟨_, publish_eq _ _⟩
  obtain ⟨updates, hstart⟩ := hstart
  obtain ⟨kept, hsub, hne, htasks⟩ := tasks_restart
    (s := { s with
      controller := o.controller
      conversions := s.conversions ++ o.conversions
      updates }) hmapped (c.awaited kind) (c.nextTimer kind) delay
  have hkind (task : Task) (hmem : task ∈ kept) : task.timer.kind ≠ kind := by
    intro hsame
    exact hne task hmem (hsame ▸ hawaited task (hsub.subset hmem))
  have hfollow : (s.follow o).tasks = kept ++ [⟨c.nextTimer kind, s.now + delay⟩] := by
    rw [follow, heffects, List.foldl_append, hstart]
    exact htasks
  refine ⟨kept, hsub, hkind, hfollow, ?_⟩
  rw [hfollow]
  intro task hmem
  rw [hcontroller]
  obtain hold | hnew := List.mem_append.1 hmem
  · rw [if_neg (hkind task hold)]
    exact hawaited task (hsub.subset hold)
  · rw [List.mem_singleton.1 hnew]
    exact if_pos rfl

/-! ## Sessions and their prospects -/

/-- The time that is left until a controller is handed the debounce timer that it awaits, with what
there is of tasks and fired timers. -/
inductive Alarm (tasks : List Task) (fired : List Timer) (awaited : Option Timer) (now : Nat) :
    Option Nat → Prop where
  /-- It is not on the way. -/
  | off (asleep : ∀ task ∈ tasks, task.timer.kind ≠ .debounce)
      (unfired : ∀ timer ∈ fired, timer.kind = .debounce → awaited ≠ some timer) :
      Alarm tasks fired awaited now none
  /-- A task sleeps for it. -/
  | asleep {task : Task} {left : Nat} (asleep : task ∈ tasks) (kind : task.timer.kind = .debounce)
      (deadline : task.deadline = now + left) : Alarm tasks fired awaited now (some left)
  /-- It has fired. -/
  | fired {timer : Timer} (mem : timer ∈ fired) (kind : timer.kind = .debounce)
      (set : awaited = some timer) : Alarm tasks fired awaited now (some 0)

namespace Alarm

variable {tasks : List Task} {fired rest : List Timer} {awaited : Option Timer} {now : Nat}
  {left : Option Nat}

/-- The conversion is due when the timer has fired and nothing sleeps for it any more. -/
lemma left_eq (h : Alarm tasks fired awaited now left) {timer : Timer} (hmem : timer ∈ fired)
    (hkind : timer.kind = .debounce) (hset : awaited = some timer)
    (hasleep : ∀ task ∈ tasks, task.timer.kind ≠ .debounce) : left = some 0 := by
  cases h with
  | off _ hunfired => exact absurd hset (hunfired timer hmem hkind)
  | asleep hsleeper hkind => exact absurd hkind (hasleep _ hsleeper)
  | fired => rfl

/-- Another timer that is handed in makes no difference. -/
lemma pass {timer : Timer} (h : Alarm tasks (timer :: rest) awaited now left)
    (hother : timer.kind = .debounce → awaited ≠ some timer) :
    Alarm tasks rest awaited now left := by
  cases h with
  | off hasleep hunfired =>
    exact .off hasleep fun other hmem => hunfired other (List.mem_cons_of_mem _ hmem)
  | asleep hmem hkind hdeadline => exact .asleep hmem hkind hdeadline
  | fired hmem hkind hset =>
    obtain rfl | hrest := List.mem_cons.1 hmem
    · exact absurd hset (hother hkind)
    · exact .fired hrest hkind hset

/-- A task that wakes up leaves its timer among those that have fired. -/
lemma wake (h : Alarm tasks fired awaited now left) {task : Task} (asleep : task ∈ tasks)
    (hdue : task.deadline ≤ now)
    (hset : task.timer.kind = .debounce → awaited = some task.timer) :
    Alarm (tasks.erase task) (fired ++ [task.timer]) awaited now left := by
  cases h with
  | off hasleep hunfired =>
    refine .off (fun other hmem => hasleep other (List.mem_of_mem_erase hmem)) ?_
    intro timer hmem
    obtain hold | hnew := List.mem_append.1 hmem
    · exact hunfired timer hold
    · rw [List.mem_singleton.1 hnew]
      exact fun hkind => absurd hkind (hasleep task asleep)
  | @asleep sleeper left hmem hkind hdeadline =>
    by_cases hsame : sleeper = task
    · subst hsame
      obtain rfl : left = 0 := by omega
      exact .fired (List.mem_append_right _ List.mem_cons_self) hkind (hset hkind)
    · exact .asleep ((List.mem_erase_of_ne hsame).2 hmem) hkind hdeadline
  | fired hmem hkind hset => exact .fired (List.mem_append_left _ hmem) hkind hset

/-- Time that goes by brings the conversion nearer. -/
lemma wait (h : Alarm tasks [] awaited now left) {ms : Nat}
    (hahead : ∀ task ∈ tasks, now + ms ≤ task.deadline) :
    Alarm tasks [] awaited (now + ms) (left.map (· - ms)) ∧ ∀ time ∈ left, ms ≤ time := by
  cases h with
  | off hasleep hunfired => exact ⟨.off hasleep hunfired, nofun⟩
  | @asleep task left hmem hkind hdeadline =>
    have htask := hahead task hmem
    have hless : ms ≤ left := by omega
    have hlater : task.deadline = now + ms + (left - ms) := by omega
    exact ⟨.asleep hmem hkind hlater, fun _ hleft => Option.some.inj hleft ▸ hless⟩
  | fired hmem => cases hmem

end Alarm

/-- A session with an open controller to which nothing is sent but changes of the graph, and what is
still to come of these. -/
structure Awaits (s : Session) (manner : Manner) (delay : Nat) (p : Prospect) : Prop where
  running : s.running = true
  unended : s.ended = false
  held : s.held = true
  unclosed : s.controller.closed = false
  keeps : s.KeepsTimers
  delay_eq : s.controller.delays.debounce = delay
  graph_eq : s.controller.document.graph = p.graph
  commands_eq : s.commands = p.queued.map .edit
  awaited : ∀ task ∈ s.tasks, s.controller.awaited task.timer.kind = some task.timer
  alarm : Alarm s.tasks s.fired s.controller.debounce s.now p.left
  /-- A patient user sends nothing while there is something left to do. -/
  unhurried : manner = .patient → p.queued = [] ∨ p.queued.length = 1 ∧ p.left ≠ some 0

lemma awaits_spawn {c : Controller} (manner : Manner) (hopen : c.closed = false) :
    (spawn c).Awaits manner c.delays.debounce ⟨c.document.graph, none, []⟩ where
  running := rfl
  unended := rfl
  held := rfl
  unclosed := hopen
  keeps := keepsTimers_spawn c
  delay_eq := rfl
  graph_eq := rfl
  commands_eq := rfl
  awaited := nofun
  alarm := .off nofun nofun
  unhurried _ := .inl rfl

namespace Awaits

/-- When the timer of a kind that the controller awaits has fired, no task sleeps for another. -/
lemma kind_ne (h : s.Awaits manner delay p) {timer : Timer} (hfired : timer ∈ s.fired)
    (kind : TimerKind) (hset : s.controller.awaited kind = some timer) {task : Task}
    (hmem : task ∈ s.tasks) : task.timer.kind ≠ kind := by
  intro hkind
  have hawaited := h.awaited task hmem
  rw [hkind, hset] at hawaited
  obtain rfl : timer = task.timer := Option.some.inj hawaited
  have hasleep : task.timer ∈ s.sleeping := List.mem_map_of_mem hmem
  have honce := h.keeps.accounted.once _ (h.keeps.accounted.mapped _ hasleep)
  have hfirst := List.count_pos_iff.2 hasleep
  have hsecond := List.count_pos_iff.2 hfired
  omega

/-- A session that rests has nothing in its queues, and no conversion is due. -/
lemma of_rests (h : s.Awaits manner delay p) (hrests : s.Rests t) :
    p.queued = [] ∧ s.fired = [] ∧ (∀ task ∈ s.tasks, s.now < task.deadline) ∧ p.left ≠ some 0 := by
  have hfired : s.fired = [] := by
    cases hfired : s.fired with
    | nil => rfl
    | cons timer rest => exact absurd trivial (hrests _ _ (.fire h.running hfired))
  have hasleep (task : Task) (hmem : task ∈ s.tasks) : s.now < task.deadline :=
    Nat.not_le.1 fun hdue => hrests _ _ (.wake hmem) hdue
  refine ⟨?_, hfired, hasleep, fun hleft => ?_⟩
  · cases hqueued : p.queued with
    | nil => rfl
    | cons next queued =>
      have hcommands := h.commands_eq
      rw [hqueued] at hcommands
      exact absurd trivial (hrests _ _ (.handle h.running hcommands))
  · have halarm := h.alarm
    rw [hleft] at halarm
    cases halarm with
    | asleep hmem _ hdeadline => exact absurd hdeadline (hasleep _ hmem).ne'
    | fired hmem =>
      rw [hfired] at hmem
      cases hmem

lemma queued_eq (h : s.Awaits manner delay p) {command : Command} {rest : List Command}
    (first : s.commands = command :: rest) :
    ∃ next queued, p.queued = next :: queued ∧ command = .change ⟨.user, .graph next⟩ ∧
      rest = queued.map .edit := by
  rw [h.commands_eq] at first
  obtain ⟨next, queued, hqueued, hcommand, hrest⟩ := List.map_eq_cons_iff.1 first
  exact ⟨next, queued, hqueued, hcommand.symm, hrest.symm⟩

/-! ### One move -/

/-- A new graph takes the place of the one at hand, and the sleep begins anew. -/
lemma take {graph next : Graph} {left : Option Nat} {queued : List Graph}
    (h : s.Awaits manner delay ⟨graph, left, next :: queued⟩)
    (hpassage : Passage t s (.handle (.change ⟨.user, .graph next⟩)) s') :
    s'.Awaits manner delay ⟨next, some delay, queued⟩ ∧ s'.conversions = s.conversions := by
  have hkeeps := hpassage.keepsTimers h.keeps
  cases hpassage with
  | @change _ rest _ first =>
    obtain ⟨_, _, hqueued, -, hrest⟩ := h.queued_eq first
    cases hqueued
    have hkeep : s.controller.step t (.change ⟨.user, .graph next⟩) =
        s.controller.keepGraph next := by
      refine if_pos ?_
      rw [Controller.accepts, h.unclosed]
      rfl
    rw [hkeep] at hkeeps ⊢
    obtain ⟨kept, -, -, htasks, hawaited⟩ := tasks_follow (o := s.controller.keepGraph next)
      .debounce [] (s := { s with commands := rest }) h.keeps.accounted.mapped h.awaited rfl
      (.inl rfl) fun other => by cases other <;> rfl
    have hframe := follow_frame { s with commands := rest } (s.controller.keepGraph next)
    refine ⟨?_, ?_⟩
    · constructor
      case running =>
        simp only [hframe]
        exact h.running
      case unended =>
        simp only [hframe]
        exact h.unended
      case held =>
        simp only [hframe]
        exact h.held
      case unclosed =>
        rw [hframe.1]
        exact h.unclosed
      case keeps => exact hkeeps
      case delay_eq =>
        rw [hframe.1]
        exact h.delay_eq
      case graph_eq =>
        rw [hframe.1]
        rfl
      case commands_eq => exact hframe.2.1.trans hrest
      case awaited =>
        rw [hframe.1]
        exact hawaited
      case alarm =>
        refine .asleep (htasks ▸ List.mem_append_right _ List.mem_cons_self) rfl ?_
        simp only [hframe, h.delay_eq]
      case unhurried =>
        intro hpatient
        obtain hnone | ⟨hlength, -⟩ := h.unhurried hpatient
        · cases hnone
        · exact .inl (List.length_eq_zero_iff.1 (Nat.succ.inj hlength))
    · simp only [hframe]
      exact List.append_nil _

/-- The debounce timer converts the graph, and only a grace timer is left behind. -/
lemma convert {graph : Graph} {queued : List Graph}
    (h : s.Awaits manner delay ⟨graph, some 0, queued⟩) {timer : Timer} {rest : List Timer}
    (first : s.fired = timer :: rest) (hset : s.controller.debounce = some timer) {o : Outcome}
    (hcarried : s.controller.spendDebounce.carryGraph t = o)
    (hkeeps : ({ s with fired := rest, timers := s.timers.filter (· ≠ timer) }.follow
      o).KeepsTimers) :
    ({ s with fired := rest, timers := s.timers.filter (· ≠ timer) }.follow o).Awaits manner delay
        ⟨graph, none, queued⟩ ∧
      ({ s with fired := rest, timers := s.timers.filter (· ≠ timer) }.follow o).conversions =
        s.conversions ++ [.ofGraph graph] := by
  have hfired : timer ∈ s.fired := first ▸ List.mem_cons_self
  have hawaited (task : Task) (hmem : task ∈ s.tasks) :
      s.controller.spendDebounce.awaited task.timer.kind = some task.timer := by
    have hold := h.awaited task hmem
    cases hkind : task.timer.kind with
    | debounce => exact absurd hkind (h.kind_ne hfired .debounce hset hmem)
    | grace =>
      rw [hkind] at hold
      exact hold
  obtain ⟨document, shown, heq, -, -, hgraph, hshown⟩ :=
    Controller.carryGraph_eq t s.controller.spendDebounce
  rw [hcarried] at heq
  have heffects := congrArg Outcome.effects heq
  rw [Controller.beginGrace_effects] at heffects
  have hcontroller := congrArg Outcome.controller heq
  have hconversions := congrArg Outcome.conversions heq
  have hmapped := (h.keeps.accounted.takeFired first).mapped
  obtain ⟨-, -, -, -, hstill⟩ := tasks_follow .grace shown hmapped hawaited heffects hshown
    fun other => by rw [hcontroller]; cases other <;> rfl
  have hframe := follow_frame
    { s with fired := rest, timers := s.timers.filter (· ≠ timer) } o
  have hnone : o.controller.awaited .debounce = none := by rw [hcontroller]; rfl
  refine ⟨?_, ?_⟩
  · constructor
    case running =>
      simp only [hframe]
      exact h.running
    case unended =>
      simp only [hframe]
      exact h.unended
    case held =>
      simp only [hframe]
      exact h.held
    case unclosed =>
      rw [hframe.1, hcontroller]
      exact h.unclosed
    case keeps => exact hkeeps
    case delay_eq =>
      rw [hframe.1, hcontroller]
      exact h.delay_eq
    case graph_eq =>
      rw [hframe.1, hcontroller]
      exact hgraph.trans h.graph_eq
    case commands_eq => exact hframe.2.1.trans h.commands_eq
    case awaited =>
      rw [hframe.1]
      exact hstill
    case alarm =>
      refine .off (fun task hmem hkind => ?_) fun timer _ _ hset => ?_
      · have htask := hstill task hmem
        rw [hkind, hnone] at htask
        cases htask
      · rw [hframe.1] at hset
        exact Option.some_ne_none timer (hset.symm.trans hnone)
    case unhurried =>
      intro hpatient
      obtain hempty | ⟨-, hleft⟩ := h.unhurried hpatient
      · exact .inl hempty
      · exact absurd rfl hleft
  · simp only [hframe, hconversions]
    change s.conversions ++ [.ofGraph s.controller.document.graph] = _
    rw [h.graph_eq]

/-- Any other timer leaves the prospect as it is. -/
lemma pass (h : s.Awaits manner delay p) {timer : Timer} {rest : List Timer}
    (first : s.fired = timer :: rest) {c : Controller}
    (hother : timer.kind = .debounce → s.controller.debounce ≠ some timer)
    (hcontroller : c = s.controller ∨
      c = s.controller.spendGrace ∧ s.controller.grace = some timer)
    (hkeeps : ({ s with fired := rest, timers := s.timers.filter (· ≠ timer) }.follow
      ⟨c, [], []⟩).KeepsTimers) :
    ({ s with fired := rest, timers := s.timers.filter (· ≠ timer) }.follow ⟨c, [], []⟩).Awaits
      manner delay p := by
  have hsame : c.closed = s.controller.closed ∧ c.delays = s.controller.delays ∧
      c.document.graph = s.controller.document.graph ∧ c.debounce = s.controller.debounce := by
    obtain rfl | ⟨rfl, -⟩ := hcontroller
    · exact ⟨rfl, rfl, rfl, rfl⟩
    · exact ⟨rfl, rfl, rfl, rfl⟩
  obtain ⟨hclosed, hdelays, hgraph, hdebounce⟩ := hsame
  have hfired : timer ∈ s.fired := first ▸ List.mem_cons_self
  constructor
  case running => exact h.running
  case unended => exact h.unended
  case held => exact h.held
  case unclosed => exact hclosed.trans h.unclosed
  case keeps => exact hkeeps
  case delay_eq => exact (congrArg Delays.debounce hdelays).trans h.delay_eq
  case graph_eq => exact hgraph.trans h.graph_eq
  case commands_eq => exact h.commands_eq
  case awaited =>
    intro task hmem
    have hold := h.awaited task hmem
    change c.awaited task.timer.kind = some task.timer
    cases hkind : task.timer.kind with
    | debounce =>
      rw [hkind] at hold
      exact hdebounce.trans hold
    | grace =>
      obtain rfl | ⟨-, hset⟩ := hcontroller
      · rw [← hkind]
        exact hold
      · exact absurd hkind (h.kind_ne hfired .grace hset hmem)
  case alarm =>
    change Alarm s.tasks rest c.debounce s.now p.left
    have halarm := h.alarm
    rw [first] at halarm
    rw [hdebounce]
    exact halarm.pass hother
  case unhurried => exact h.unhurried

lemma fire (h : s.Awaits manner delay p) (t : Converter) {timer : Timer} {rest : List Timer}
    (first : s.fired = timer :: rest)
    (hkeeps : ({ s with fired := rest, timers := s.timers.filter (· ≠ timer) }.follow
      (s.controller.fire t timer)).KeepsTimers) :
    ∃ converted p', Prospect.Move manner delay p converted p' ∧
      ({ s with fired := rest, timers := s.timers.filter (· ≠ timer) }.follow
        (s.controller.fire t timer)).Awaits manner delay p' ∧
      ({ s with fired := rest, timers := s.timers.filter (· ≠ timer) }.follow
        (s.controller.fire t timer)).conversions = s.conversions ++ converted.map .ofGraph := by
  have hcourse := Controller.course_fire t s.controller timer
  generalize s.controller.fire t timer = o at hcourse hkeeps ⊢
  cases hcourse with
  | dropped _ hstale =>
    refine ⟨[], p, .stay p, h.pass first (fun hkind hset => ?_) (.inl rfl) hkeeps, rfl⟩
    obtain hclosed | hother := hstale timer rfl
    · rw [h.unclosed] at hclosed
      cases hclosed
    · rw [hkind] at hother
      exact hother hset
  | debounce _ hkind hset =>
    have hfired : timer ∈ s.fired := first ▸ List.mem_cons_self
    have hleft := h.alarm.left_eq hfired hkind hset fun _ =>
      h.kind_ne hfired .debounce hset
    obtain ⟨graph, left, queued⟩ := p
    obtain rfl : left = some 0 := hleft
    exact ⟨[graph], _, .convert graph queued, h.convert first hset rfl hkeeps⟩
  | grace _ hkind hset =>
    refine ⟨[], p, .stay p, h.pass first (fun hother => ?_) (.inr ⟨rfl, hset⟩) hkeeps, rfl⟩
    rw [hkind] at hother
    cases hother

/-- A task wakes up. -/
lemma wake (h : s.Awaits manner delay p) {task : Task} (asleep : task ∈ s.tasks)
    (hdue : task.deadline ≤ s.now) (hkeeps : (s.wake task).KeepsTimers) :
    (s.wake task).Awaits manner delay p where
  running := h.running
  unended := h.unended
  held := h.held
  unclosed := h.unclosed
  keeps := hkeeps
  delay_eq := h.delay_eq
  graph_eq := h.graph_eq
  commands_eq := h.commands_eq
  awaited other hmem := h.awaited other (List.mem_of_mem_erase hmem)
  alarm := h.alarm.wake asleep hdue fun hkind => by
    have hset := h.awaited task asleep
    rw [hkind] at hset
    exact hset
  unhurried := h.unhurried

/-- A move of the session is a move of the prospect. -/
lemma move (h : s.Awaits manner delay p) {move : Move} (hstep : Step t s move s')
    (hdue : s.IsDue move) :
    ∃ converted p', Prospect.Move manner delay p converted p' ∧ s'.Awaits manner delay p' ∧
      s'.conversions = s.conversions ++ converted.map .ofGraph := by
  have hkeeps := hstep.passage.keepsTimers h.keeps
  have hpassage := hstep.passage
  cases hpassage with
  | send | release | unlisten | wait => cases hdue
  | change _ first =>
    obtain ⟨next, queued, hqueued, hcommand, -⟩ := h.queued_eq first
    cases hcommand
    obtain ⟨graph, left, _⟩ := p
    cases hqueued
    obtain ⟨hawaits, hconversions⟩ := h.take hstep.passage
    refine ⟨[], _, .take fun hpatient => ?_, hawaits, hconversions.trans (List.append_nil _).symm⟩
    obtain hnone | ⟨-, hleft⟩ := h.unhurried hpatient
    · cases hnone
    · exact hleft
  | snapshot _ first | close _ first =>
    obtain ⟨_, _, _, hcommand, _⟩ := h.queued_eq first
    cases hcommand
  | desert _ _ unheld =>
    rw [h.held] at unheld
    cases unheld
  | fire _ first => exact h.fire t first hkeeps
  | wake asleep => exact ⟨[], p, .stay p, h.wake asleep hdue hkeeps, (List.append_nil _).symm⟩
  | finish stopped =>
    rw [h.running] at stopped
    cases stopped

/-! ### One step -/

/-- The user changes the graph. -/
lemma send (h : s.Awaits manner delay p) (hcalm : manner = .patient → s.Rests t) (next : Graph) :
    Awaits { s with commands := s.commands ++ [.edit next] } manner delay
      { p with queued := p.queued ++ [next] } where
  running := h.running
  unended := h.unended
  held := h.held
  unclosed := h.unclosed
  keeps := (Passage.send (t := t) h.held h.unended).keepsTimers h.keeps
  delay_eq := h.delay_eq
  graph_eq := h.graph_eq
  commands_eq := by rw [h.commands_eq, List.map_append]; rfl
  awaited := h.awaited
  alarm := h.alarm
  unhurried hpatient := by
    obtain ⟨hqueued, -, -, hleft⟩ := h.of_rests (hcalm hpatient)
    refine .inr ⟨?_, hleft⟩
    rw [hqueued]
    rfl

/-- Time goes by. -/
lemma wait (h : s.Awaits manner delay p) (hrests : s.Rests t) {ms : Nat}
    (hahead : ∀ task ∈ s.tasks, s.now + ms ≤ task.deadline) :
    { s with now := s.now + ms }.Awaits manner delay (p.after ms) ∧
      ∀ left ∈ p.left, ms ≤ left := by
  obtain ⟨hqueued, hfired, -, -⟩ := h.of_rests hrests
  have halarm := h.alarm
  rw [hfired] at halarm
  obtain ⟨halarm, hless⟩ := halarm.wait hahead
  rw [← hfired] at halarm
  refine ⟨?_, hless⟩
  constructor
  case running => exact h.running
  case unended => exact h.unended
  case held => exact h.held
  case unclosed => exact h.unclosed
  case keeps => exact (Passage.wait (t := t)).keepsTimers h.keeps
  case delay_eq => exact h.delay_eq
  case graph_eq => exact h.graph_eq
  case commands_eq => exact h.commands_eq
  case awaited => exact h.awaited
  case alarm => exact halarm
  case unhurried => exact fun _ => .inl hqueued

/-- What one step converts, and what may be converted after it, was within the outlook before. -/
lemma step (h : s.Awaits manner delay p) {turns' : List Turn}
    (hstep : Scene.Step t manner ⟨s, turns⟩ ⟨s', turns'⟩) :
    ∃ converted p', s'.Awaits manner delay p' ∧
      s'.conversions = s.conversions ++ converted.map .ofGraph ∧
      ∀ graphs, Outlook manner delay p' turns' graphs →
        Outlook manner delay p turns (converted ++ graphs) := by
  cases hstep with
  | move step due =>
    obtain ⟨converted, p', hmove, hawaits, hconversions⟩ := h.move step due
    exact ⟨converted, p', hawaits, hconversions, fun _ => .of_move hmove⟩
  | edit calm step =>
    cases step.passage
    exact ⟨[], _, h.send calm _, (List.append_nil _).symm, fun _ => Outlook.send_iff.1⟩
  | wait _ within calm ahead step =>
    cases step.passage
    obtain ⟨hqueued, -, -, -⟩ := h.of_rests calm
    obtain ⟨hawaits, hleft⟩ := h.wait calm ahead
    exact ⟨[], _, hawaits, (List.append_nil _).symm,
      fun _ => (Outlook.wait_iff hqueued within hleft).1⟩
  | awake => exact ⟨[], p, h, (List.append_nil _).symm, fun _ => Outlook.awake_iff.1⟩

end Awaits

end AgentScript.Editing.Session
