import AgentScript.Editing.Session
import AgentScript.Proofs.Editing.History

/-!
# The courses of a step

A step of a controller takes one of six courses: the input is dropped, or a script is carried over,
or a graph is kept, or one of the two timers that the controller awaits is handed in, or the
document is closed.  `Course` lists them with the condition and the outcome of each, and `course`
says that every step takes one.  What is said of all steps is proved from this list.

Two things about a run are told here as well.  The tokens of the timers that it sets are consecutive
numbers.  And the directions in which it carries something over are those of its accepted scripts
and of its outstanding debounce timers that are handed in; `carried` tells them from these, and
`carried_run` says that the converter is used accordingly.
-/

namespace AgentScript.Editing

lemma filterMap_cons_toList {α β : Type} (f : α → Option β) (a : α) (l : List α) :
    (a :: l).filterMap f = (f a).toList ++ l.filterMap f := by
  simp only [List.filterMap_eq_flatMap_toList, List.flatMap_cons]

lemma filterMap_concat {α β : Type} (f : α → Option β) (l : List α) (a : α) :
    (l ++ [a]).filterMap f = l.filterMap f ++ (f a).toList := by
  simp only [List.filterMap_eq_flatMap_toList, List.flatMap_append, List.flatMap_singleton]

/-- The timer that an effect sets. -/
def Effect.scheduled? : Effect → Option Timer
  | .schedule timer _ => some timer
  | .cancel _ => none
  | .applyGraph _ _ _ => none
  | .applyText _ _ => none

/-- What an effect shows in a view. -/
def Effect.update? : Effect → Option Update
  | .applyGraph revision graph diagnostics => some (.graph revision graph diagnostics)
  | .applyText revision text => some (.text revision text)
  | .schedule _ _ => none
  | .cancel _ => none

/-- The side whose content is converted. -/
def Conversion.side : Conversion → Side
  | .ofText _ => .text
  | .ofGraph _ => .graph

namespace Controller

variable {t : Converter} {c : Controller} {timers : Finset Timer} {input : Input} {o : Outcome}

/-- The timer of a kind that a controller awaits. -/
def awaited (c : Controller) : TimerKind → Option Timer
  | .debounce => c.debounce
  | .grace => c.grace

lemma Tracks.kind_of_awaited (h : c.Tracks timers) {kind : TimerKind} {timer : Timer}
    (hset : c.awaited kind = some timer) : timer.kind = kind := by
  cases kind with
  | debounce => exact h.debounce_kind timer hset
  | grace => exact h.grace_kind timer hset

/-- The outstanding timers are those that the controller awaits. -/
lemma Tracks.mem_iff_awaited (h : c.Tracks timers) (timer : Timer) :
    timer ∈ timers ↔ c.awaited timer.kind = some timer := by
  rw [h.mem_iff]
  constructor
  · rintro (hd | hg)
    · rw [h.debounce_kind timer hd]
      exact hd
    · rw [h.grace_kind timer hg]
      exact hg
  · intro hset
    cases hkind : timer.kind with
    | debounce =>
      rw [hkind] at hset
      exact .inl hset
    | grace =>
      rw [hkind] at hset
      exact .inr hset

lemma Tracks.mem_of_awaited (h : c.Tracks timers) (kind : TimerKind) {timer : Timer}
    (hset : c.awaited kind = some timer) : timer ∈ timers := by
  rw [h.mem_iff_awaited, h.kind_of_awaited hset]
  exact hset

/-! ## The courses -/

/-- A controller whose debounce timer was handed in. -/
def spendDebounce (c : Controller) : Controller :=
  { c with debounce := none, document := { c.document with pending := false } }

/-- A controller whose grace timer was handed in. -/
def spendGrace (c : Controller) : Controller :=
  { c with grace := none, document := { c.document with phase := .idle } }

/-- A controller that was closed. -/
def shut (c : Controller) : Controller :=
  { c with
    closed := true
    document := { c.document with phase := .idle, pending := false }
    debounce := none
    grace := none }

/-- The courses that a step can take. -/
inductive Course (t : Converter) (c : Controller) : Input → Outcome → Prop where
  | dropped {input : Input} (refused : c.acceptedOf input = none)
      (stale : ∀ timer, input = .fire timer → c.closed = true ∨ c.awaited timer.kind ≠ some timer)
      (again : input = .close → c.closed = true) : Course t c input ⟨c, [], []⟩
  | text {author : Author} {text : String} (accepted : c.accepts ⟨author, .text text⟩ = true) :
      Course t c (.change ⟨author, .text text⟩) (c.carryText t text)
  | graph {author : Author} {graph : Graph} (accepted : c.accepts ⟨author, .graph graph⟩ = true) :
      Course t c (.change ⟨author, .graph graph⟩) (c.keepGraph graph)
  | debounce {timer : Timer} (unclosed : c.closed = false) (kind : timer.kind = .debounce)
      (set : c.debounce = some timer) : Course t c (.fire timer) (c.spendDebounce.carryGraph t)
  | grace {timer : Timer} (unclosed : c.closed = false) (kind : timer.kind = .grace)
      (set : c.grace = some timer) : Course t c (.fire timer) ⟨c.spendGrace, [], []⟩
  | close (unclosed : c.closed = false) :
      Course t c .close ⟨c.shut, stop c.debounce ++ stop c.grace, []⟩

lemma course_change (t : Converter) (c : Controller) (event : ReportedChange) :
    Course t c (.change event) (c.change t event) := by
  obtain ⟨author, change⟩ := event
  unfold Controller.change
  split
  next haccepts =>
    cases change with
    | text text => exact .text haccepts
    | graph graph => exact .graph haccepts
  next hrefused => exact .dropped (if_neg hrefused) nofun nofun

lemma course_fire (t : Converter) (c : Controller) (timer : Timer) :
    Course t c (.fire timer) (c.fire t timer) := by
  unfold Controller.fire
  split
  next hclosed => exact .dropped rfl (fun _ _ => .inl hclosed) nofun
  next hopen =>
    rw [Bool.not_eq_true] at hopen
    have hdropped (hstale : c.awaited timer.kind ≠ some timer) :
        Course t c (.fire timer) ⟨c, [], []⟩ :=
      .dropped rfl (fun _ hsame => .inr (Input.fire.inj hsame ▸ hstale)) nofun
    split
    next hkind =>
      split
      next hset => exact .debounce hopen hkind hset
      next hset => exact hdropped (hkind ▸ hset)
    next hkind =>
      split
      next hset => exact .grace hopen hkind hset
      next hset => exact hdropped (hkind ▸ hset)

lemma course_close (t : Converter) (c : Controller) : Course t c .close c.close := by
  unfold Controller.close
  split
  next hclosed => exact .dropped rfl nofun fun _ => hclosed
  next hopen => exact .close (Bool.not_eq_true _ ▸ hopen)

/-- Every step takes one of the courses. -/
theorem course (t : Converter) (c : Controller) (input : Input) :
    Course t c input (c.step t input) := by
  cases input with
  | change event => exact course_change t c event
  | fire timer => exact course_fire t c timer
  | close => exact course_close t c

/-- Whether the script is replaced or not, carrying a graph over sets the grace timer and leaves
the graph and the rest of the controller as they are. -/
lemma carryGraph_eq (t : Converter) (c : Controller) :
    ∃ document shown,
      c.carryGraph t = { c with document }.beginGrace shown [.ofGraph c.document.graph] ∧
        document.phase = .fromGraph ∧ document.pending = c.document.pending ∧
        document.graph = c.document.graph ∧
        (shown = [] ∨ ∃ revision text, shown = [Effect.applyText revision text]) := by
  unfold carryGraph
  dsimp only
  split
  next => exact ⟨_, _, rfl, rfl, rfl, rfl, .inl rfl⟩
  next => exact ⟨_, _, rfl, rfl, rfl, rfl, .inr ⟨_, _, rfl⟩⟩

lemma beginGrace_effects (c : Controller) (before : List Effect) (conversions : List Conversion) :
    (c.beginGrace before conversions).effects =
      before ++ (stop c.grace ++ [.schedule (c.nextTimer .grace) c.delays.grace]) :=
  List.append_assoc _ _ _

/-! ## Closed controllers -/

lemma accepts_of_closed (hclosed : c.closed = true) (event : ReportedChange) :
    c.accepts event = false := by
  rw [accepts, hclosed]
  rfl

lemma unclosed_of_accepts {event : ReportedChange} (haccepts : c.accepts event = true) :
    c.closed = false := by
  by_contra hclosed
  rw [accepts_of_closed (Bool.not_eq_false _ ▸ hclosed)] at haccepts
  cases haccepts

/-- A closed controller drops everything. -/
lemma step_of_closed (t : Converter) (hclosed : c.closed = true) (input : Input) :
    c.step t input = ⟨c, [], []⟩ := by
  have hcourse := course t c input
  generalize c.step t input = o at hcourse
  cases hcourse with
  | dropped => rfl
  | text haccepts | graph haccepts =>
    rw [accepts_of_closed hclosed] at haccepts
    cases haccepts
  | debounce hopen | grace hopen | close hopen =>
    rw [hclosed] at hopen
    cases hopen

lemma run_of_closed (t : Converter) (hclosed : c.closed = true) (inputs : List Input) :
    c.run t inputs = ⟨c, [], []⟩ := by
  induction inputs with
  | nil => rfl
  | cons input rest ih => simp only [run, step_of_closed t hclosed, ih, List.nil_append]

lemma close_closed (c : Controller) : c.close.controller.closed = true := by
  unfold Controller.close
  split
  next hclosed => exact hclosed
  next => rfl

lemma run_append (t : Converter) (c : Controller) (first second : List Input) :
    c.run t (first ++ second) =
      let front := c.run t first
      let back := front.controller.run t second
      ⟨back.controller, front.effects ++ back.effects, front.conversions ++ back.conversions⟩ := by
  induction first generalizing c with
  | nil => rfl
  | cons input rest ih => simp [run, ih, List.append_assoc]

lemma run_singleton (t : Converter) (c : Controller) (input : Input) :
    c.run t [input] = c.step t input := by
  simp only [run, List.append_nil]

/-- A run with a close in it ends closed. -/
lemma closed_of_close_mem (t : Converter) (c : Controller) {inputs : List Input}
    (hclose : Input.close ∈ inputs) : (c.run t inputs).controller.closed = true := by
  obtain ⟨before, after, rfl⟩ := List.append_of_mem hclose
  simp only [run_append, run, step]
  rw [run_of_closed t (close_closed _)]
  exact close_closed _

/-! ## Effects -/

/-- The timers that some effects set, in their order. -/
def scheduled (effects : List Effect) : List Timer := effects.filterMap Effect.scheduled?

lemma scheduled_cons (effect : Effect) (rest : List Effect) :
    scheduled (effect :: rest) = effect.scheduled?.toList ++ scheduled rest :=
  filterMap_cons_toList Effect.scheduled? effect rest

@[simp] lemma scheduled_append (first second : List Effect) :
    scheduled (first ++ second) = scheduled first ++ scheduled second := List.filterMap_append

@[simp] lemma scheduled_stop (stopped : Option Timer) : scheduled (stop stopped) = [] := by
  cases stopped <;> rfl

/-- What some effects show in the views, in their order. -/
def updates (effects : List Effect) : List Update := effects.filterMap Effect.update?

@[simp] lemma updates_append (first second : List Effect) :
    updates (first ++ second) = updates first ++ updates second := List.filterMap_append

lemma updates_cons (effect : Effect) (rest : List Effect) :
    updates (effect :: rest) = effect.update?.toList ++ updates rest :=
  filterMap_cons_toList Effect.update? effect rest

@[simp] lemma updates_stop (stopped : Option Timer) : updates (stop stopped) = [] := by
  cases stopped <;> rfl

/-- Closing a document only stops timers. -/
lemma close_effects (c : Controller) :
    ∃ first second, c.close.effects = stop first ++ stop second := by
  unfold Controller.close
  split
  next => exact ⟨none, none, rfl⟩
  next => exact ⟨c.debounce, c.grace, rfl⟩

lemma updates_close (c : Controller) : updates c.close.effects = [] := by
  obtain ⟨first, second, heffects⟩ := c.close_effects
  rw [heffects, updates_append, updates_stop, updates_stop, List.append_nil]

lemma scheduled_close (c : Controller) : scheduled c.close.effects = [] := by
  obtain ⟨first, second, heffects⟩ := c.close_effects
  rw [heffects, scheduled_append, scheduled_stop, scheduled_stop, List.append_nil]

lemma conversions_close (c : Controller) : c.close.conversions = [] := by
  unfold Controller.close
  split
  next => rfl
  next => rfl

/-- The timers that some effects set have the tokens that come next, in their order, and a
controller keeps the last of these. -/
def Numbered (c c' : Controller) (effects : List Effect) : Prop :=
  ∃ count, (scheduled effects).map (·.token) = List.range' (c.lastToken + 1) count ∧
    c'.lastToken = c.lastToken + count

lemma numbered_of_empty {effects : List Effect} {c' : Controller} (hnone : scheduled effects = [])
    (hlast : c'.lastToken = c.lastToken) : Numbered c c' effects :=
  ⟨0, by rw [hnone]; rfl, hlast⟩

lemma numbered_of_single {effects : List Effect} {c' : Controller} (kind : TimerKind)
    (hone : scheduled effects = [c.nextTimer kind]) (hlast : c'.lastToken = c.lastToken + 1) :
    Numbered c c' effects :=
  ⟨1, by rw [hone]; rfl, hlast⟩

lemma Numbered.trans {c' c'' : Controller} {first second : List Effect}
    (hfirst : Numbered c c' first) (hsecond : Numbered c' c'' second) :
    Numbered c c'' (first ++ second) := by
  obtain ⟨count, htokens, hlast⟩ := hfirst
  obtain ⟨count', htokens', hlast'⟩ := hsecond
  refine ⟨count + count', ?_, by rw [hlast', hlast, Nat.add_assoc]⟩
  rw [scheduled_append, List.map_append, htokens, htokens', hlast, ← List.range'_append_1]
  congr 2
  exact Nat.add_right_comm ..

lemma scheduled_carryText (t : Converter) (c : Controller) (text : String) :
    scheduled (c.carryText t text).effects = [c.nextTimer .grace] := by
  simp only [carryText, beginGrace_effects, scheduled_append, scheduled_stop]
  rfl

lemma scheduled_keepGraph (c : Controller) (graph : Graph) :
    scheduled (c.keepGraph graph).effects = [c.nextTimer .debounce] := by
  simp only [keepGraph, scheduled_append, scheduled_stop]
  rfl

lemma scheduled_carryGraph (t : Converter) (c : Controller) :
    scheduled (c.carryGraph t).effects = [c.nextTimer .grace] := by
  obtain ⟨document, shown, heq, -, -, -, hshown⟩ := carryGraph_eq t c
  have hnone : scheduled shown = [] := by
    obtain rfl | ⟨revision, text, rfl⟩ := hshown
    · rfl
    · rfl
  rw [heq]
  simp only [beginGrace_effects, scheduled_append, scheduled_stop, hnone]
  rfl

lemma Course.numbered (h : Course t c input o) : Numbered c o.controller o.effects := by
  cases h with
  | dropped | grace => exact numbered_of_empty rfl rfl
  | close =>
    refine numbered_of_empty ?_ rfl
    rw [scheduled_append, scheduled_stop, scheduled_stop]
    rfl
  | text => exact numbered_of_single .grace (scheduled_carryText t c _) rfl
  | graph => exact numbered_of_single .debounce (scheduled_keepGraph c _) rfl
  | debounce =>
    refine numbered_of_single .grace (scheduled_carryGraph t c.spendDebounce) ?_
    obtain ⟨document, shown, heq, -⟩ := carryGraph_eq t c.spendDebounce
    rw [heq]
    rfl

lemma numbered_run (t : Converter) (c : Controller) (inputs : List Input) :
    Numbered c (c.run t inputs).controller (c.run t inputs).effects := by
  induction inputs generalizing c with
  | nil => exact numbered_of_empty rfl rfl
  | cons input rest ih => exact (course t c input).numbered.trans (ih _)

/-! ## Directions -/

/-- The side from which an input carries something over, if it does: an accepted script at once,
and a graph when an outstanding debounce timer is handed in. -/
def carriedBy (c : Controller) (timers : Finset Timer) : Input → Option Side
  | .change event => if c.accepts event = true ∧ event.change.side = .text then some .text else none
  | .fire timer => if timer ∈ timers ∧ timer.kind = .debounce then some .graph else none
  | .close => none

/-- The sides from which a run carries something over, in the order in which it does. -/
def carried (t : Converter) (c : Controller) (timers : Finset Timer) : List Input → List Side
  | [] => []
  | input :: rest =>
    (c.carriedBy timers input).toList ++
      carried t (c.step t input).controller (c.timersAfterStep t timers input) rest

/-- A timer that is handed in and dropped is not outstanding. -/
lemma Tracks.notMem_of_stale (h : c.Tracks timers) {timer : Timer}
    (hstale : c.closed = true ∨ c.awaited timer.kind ≠ some timer) : timer ∉ timers := by
  obtain hclosed | hother := hstale
  · rw [h.eq_empty_of_closed hclosed]
    exact Finset.notMem_empty timer
  · rw [h.mem_iff_awaited]
    exact hother

lemma accepts_of_refused {event : ReportedChange}
    (hrefused : c.acceptedOf (.change event) = none) : c.accepts event = false := by
  by_contra haccepts
  rw [Bool.not_eq_false] at haccepts
  rw [acceptedOf, if_pos haccepts] at hrefused
  cases hrefused

lemma Course.conversions (h : Course t c input o) (htracks : c.Tracks timers) :
    o.conversions.map Conversion.side = (c.carriedBy timers input).toList := by
  cases h with
  | dropped hrefused hstale =>
    have hnone : c.carriedBy timers input = none := by
      cases input with
      | change event =>
        rw [carriedBy, accepts_of_refused hrefused]
        rfl
      | fire timer => exact if_neg fun hdue => htracks.notMem_of_stale (hstale timer rfl) hdue.1
      | close => rfl
    rw [hnone]
    rfl
  | text haccepts =>
    rw [carriedBy, if_pos ⟨haccepts, rfl⟩]
    rfl
  | graph =>
    rw [carriedBy, if_neg fun htext => nomatch htext.2]
    rfl
  | debounce _ hkind hset =>
    obtain ⟨document, shown, heq, -⟩ := carryGraph_eq t c.spendDebounce
    rw [carriedBy, if_pos ⟨htracks.mem_of_awaited .debounce hset, hkind⟩, heq]
    rfl
  | grace _ hkind =>
    rw [carriedBy, hkind, if_neg fun hdue => nomatch hdue.2]
    rfl
  | close => rfl

/-- The converter is used for what is carried over, and for nothing else. -/
lemma carried_run (htracks : c.Tracks timers) (inputs : List Input) :
    (c.run t inputs).conversions.map Conversion.side = c.carried t timers inputs := by
  induction inputs generalizing c timers with
  | nil => rfl
  | cons input rest ih =>
    rw [run, carried, List.map_append, (course t c input).conversions htracks,
      ih (htracks.step t input)]

end Controller

end AgentScript.Editing
