import AgentScript.Editing.Controller
import Mathlib.Data.Finset.Basic
import Mathlib.Tactic.Common

/-!
# What a run of a controller leaves behind

The host of a controller sees inputs and effects and nothing of the state behind them.  Two things
can be told from these alone, and this module defines both along a whole run.

The *outstanding* timers are those that were scheduled and since then neither cancelled nor handed
in.  `timersAfter` follows them through every effect, and `Tracks.run` says that they are exactly
the two timers the controller remembers, of the right kinds.  No token enters the argument: a
debounce timer is never a grace timer, and this alone keeps the two apart.

The *accepted* changes are the user's, and those of unknown author that the phase does not take for
an echo.  `accepted` lists them in the order in which they came.
-/

namespace AgentScript.Editing

/-! ## Outstanding timers -/

/-- The timers outstanding after an effect. -/
def Effect.applyTo (timers : Finset Timer) : Effect → Finset Timer
  | .schedule timer _ => insert timer timers
  | .cancel timer => timers.erase timer
  | .applyGraph _ _ _ => timers
  | .applyText _ _ => timers

/-- The timers still outstanding once an input is handed in: one that fires is used up. -/
def Input.useUp (timers : Finset Timer) : Input → Finset Timer
  | .fire timer => timers.erase timer
  | .change _ => timers
  | .close => timers

namespace Controller

/-- The timers outstanding after a step. -/
def timersAfterStep (t : Converter) (c : Controller) (timers : Finset Timer) (input : Input) :
    Finset Timer :=
  (c.step t input).effects.foldl Effect.applyTo (input.useUp timers)

/-- The timers outstanding after a run. -/
def timersAfter (t : Converter) (c : Controller) (timers : Finset Timer) :
    List Input → Finset Timer
  | [] => timers
  | input :: rest =>
    timersAfter t (c.step t input).controller (c.timersAfterStep t timers input) rest

/-- A controller remembers exactly the outstanding timers, each in the place of its kind. -/
structure Tracks (c : Controller) (timers : Finset Timer) : Prop where
  mem_iff : ∀ timer, timer ∈ timers ↔ c.debounce = some timer ∨ c.grace = some timer
  debounce_kind : ∀ timer, c.debounce = some timer → timer.kind = .debounce
  grace_kind : ∀ timer, c.grace = some timer → timer.kind = .grace
  eq_empty_of_closed : c.closed = true → timers = ∅

lemma tracks_new (delays : Delays) : (new delays).Tracks ∅ := by
  constructor <;> simp [new]

@[simp] lemma mem_foldl_stop {timer : Timer} {timers : Finset Timer} {stopped : Option Timer} :
    timer ∈ (stop stopped).foldl Effect.applyTo timers ↔
      timer ∈ timers ∧ stopped ≠ some timer := by
  cases stopped with
  | none => simp [stop]
  | some old =>
    simp only [stop, Option.toList_some, List.map_cons, List.map_nil, List.foldl_cons,
      List.foldl_nil, Effect.applyTo, Finset.mem_erase, ne_eq, Option.some.injEq]
    rw [and_comm, eq_comm]

namespace Tracks

variable {c : Controller} {timers : Finset Timer}

lemma ne_of_debounce (h : c.Tracks timers) {timer : Timer} (hd : c.debounce = some timer) :
    c.grace ≠ some timer := by
  intro hg
  have hkind := h.debounce_kind timer hd
  rw [h.grace_kind timer hg] at hkind
  cases hkind

lemma setDocument (h : c.Tracks timers) (document : Document) :
    { c with document }.Tracks timers :=
  ⟨h.mem_iff, h.debounce_kind, h.grace_kind, h.eq_empty_of_closed⟩

/-- A timer that is not outstanding is not used up either. -/
lemma erase_of_ne (h : c.Tracks timers) {timer : Timer} (hd : c.debounce ≠ some timer)
    (hg : c.grace ≠ some timer) : c.Tracks (timers.erase timer) := by
  rw [Finset.erase_eq_of_notMem]
  · exact h
  · rw [h.mem_iff]
    exact not_or.2 ⟨hd, hg⟩

/-- A debounce timer that is stopped, or used up, leaves the grace timer alone. -/
lemma dropDebounce (h : c.Tracks timers) (hopen : c.closed = false) {rest : Finset Timer}
    (hrest : ∀ timer, timer ∈ rest ↔ timer ∈ timers ∧ c.debounce ≠ some timer)
    (document : Document) : { c with document, debounce := none }.Tracks rest where
  mem_iff timer := by
    rw [hrest, h.mem_iff]
    constructor
    · rintro ⟨hd | hg, hne⟩
      · exact absurd hd hne
      · exact .inr hg
    · rintro (hd | hg)
      · cases hd
      · exact ⟨.inr hg, fun hd => h.ne_of_debounce hd hg⟩
  debounce_kind _ hd := by cases hd
  grace_kind := h.grace_kind
  eq_empty_of_closed hclosed := by
    rw [hopen] at hclosed
    cases hclosed

/-- The grace timer is set anew, after effects that the controller already tracks. -/
lemma beginGrace (h : c.Tracks timers) {before : List Effect} {start : Finset Timer}
    (hbefore : before.foldl Effect.applyTo start = timers) (hopen : c.closed = false)
    (conversions : List Conversion) :
    (c.beginGrace before conversions).controller.Tracks
      ((c.beginGrace before conversions).effects.foldl Effect.applyTo start) where
  mem_iff timer := by
    simp only [Controller.beginGrace, List.foldl_append, List.foldl_cons, List.foldl_nil, hbefore,
      Effect.applyTo, Finset.mem_insert, mem_foldl_stop, h.mem_iff, Option.some.injEq]
    constructor
    · rintro (rfl | ⟨hd | hg, hne⟩)
      · exact .inr rfl
      · exact .inl hd
      · exact absurd hg hne
    · rintro (hd | rfl)
      · exact .inr ⟨.inl hd, h.ne_of_debounce hd⟩
      · exact .inl rfl
  debounce_kind := h.debounce_kind
  grace_kind timer hg := by
    simp only [Controller.beginGrace, Option.some.injEq] at hg
    rw [← hg]
    rfl
  eq_empty_of_closed hclosed := by
    rw [show (c.beginGrace before conversions).controller.closed = false from hopen] at hclosed
    cases hclosed

lemma carryText (h : c.Tracks timers) (hopen : c.closed = false) (t : Converter) (text : String) :
    (c.carryText t text).controller.Tracks
      ((c.carryText t text).effects.foldl Effect.applyTo timers) := by
  refine (h.dropDebounce hopen (fun timer => ?_) _).beginGrace rfl hopen _
  rw [List.foldl_append]
  simp [Effect.applyTo]

lemma keepGraph (h : c.Tracks timers) (hopen : c.closed = false) (graph : Graph) :
    (c.keepGraph graph).controller.Tracks
      ((c.keepGraph graph).effects.foldl Effect.applyTo timers) where
  mem_iff timer := by
    simp only [Controller.keepGraph, List.foldl_append, List.foldl_cons, List.foldl_nil,
      Effect.applyTo, Finset.mem_insert, mem_foldl_stop, h.mem_iff, Option.some.injEq]
    constructor
    · rintro (rfl | ⟨hd | hg, hne⟩)
      · exact .inl rfl
      · exact absurd hd hne
      · exact .inr hg
    · rintro (rfl | hg)
      · exact .inl rfl
      · exact .inr ⟨.inr hg, fun hd => h.ne_of_debounce hd hg⟩
  debounce_kind timer hd := by
    simp only [Controller.keepGraph, Option.some.injEq] at hd
    rw [← hd]
    rfl
  grace_kind := h.grace_kind
  eq_empty_of_closed hclosed := by
    rw [show (c.keepGraph graph).controller.closed = false from hopen] at hclosed
    cases hclosed

lemma carryGraph (h : c.Tracks timers) (hopen : c.closed = false) (t : Converter) :
    (c.carryGraph t).controller.Tracks
      ((c.carryGraph t).effects.foldl Effect.applyTo timers) := by
  unfold Controller.carryGraph
  dsimp only
  split
  · refine Tracks.beginGrace ?_ rfl ?_ _
    · exact h.setDocument _
    · exact hopen
  · refine Tracks.beginGrace ?_ rfl ?_ _
    · exact h.setDocument _
    · exact hopen

lemma change (h : c.Tracks timers) (t : Converter) (event : ReportedChange) :
    (c.change t event).controller.Tracks
      ((c.change t event).effects.foldl Effect.applyTo timers) := by
  unfold Controller.change
  split
  next haccepts =>
    have hopen : c.closed = false := by
      simp only [accepts, Bool.and_eq_true, Bool.not_eq_true'] at haccepts
      exact haccepts.1
    split
    · exact h.carryText hopen t _
    · exact h.keepGraph hopen _
  next => exact h

lemma fireDebounce (h : c.Tracks timers) (hopen : c.closed = false) (t : Converter)
    {timer : Timer} (hd : c.debounce = some timer) (document : Document) :
    ({ c with document, debounce := none }.carryGraph t).controller.Tracks
      (({ c with document, debounce := none }.carryGraph t).effects.foldl Effect.applyTo
        (timers.erase timer)) := by
  refine Tracks.carryGraph (h.dropDebounce hopen (fun other => ?_) document) hopen t
  rw [Finset.mem_erase, hd, and_comm, ne_eq, ne_eq, Option.some.injEq, eq_comm]

lemma fireGrace (h : c.Tracks timers) (hopen : c.closed = false) {timer : Timer}
    (hg : c.grace = some timer) (document : Document) :
    { c with grace := none, document }.Tracks (timers.erase timer) where
  mem_iff other := by
    rw [Finset.mem_erase, h.mem_iff, hg]
    constructor
    · rintro ⟨hne, hd | hother⟩
      · exact .inl hd
      · exact absurd (Option.some.inj hother).symm hne
    · rintro (hd | hnone)
      · refine ⟨?_, .inl hd⟩
        rintro rfl
        exact h.ne_of_debounce hd hg
      · cases hnone
  debounce_kind := h.debounce_kind
  grace_kind _ hnone := by cases hnone
  eq_empty_of_closed hclosed := by
    rw [hopen] at hclosed
    cases hclosed

lemma fire (h : c.Tracks timers) (t : Converter) (timer : Timer) :
    (c.fire t timer).controller.Tracks
      ((c.fire t timer).effects.foldl Effect.applyTo (timers.erase timer)) := by
  unfold Controller.fire
  split
  next hclosed =>
    rw [h.eq_empty_of_closed hclosed, Finset.erase_empty, ← h.eq_empty_of_closed hclosed]
    exact h
  next hopen =>
    rw [Bool.not_eq_true] at hopen
    -- A timer of one kind is never remembered in the place of the other.
    split
    next hkind =>
      split
      next hd => exact h.fireDebounce hopen t hd _
      next hd =>
        apply h.erase_of_ne hd
        intro hg
        rw [h.grace_kind timer hg] at hkind
        cases hkind
    next hkind =>
      split
      next hg => exact h.fireGrace hopen hg _
      next hg =>
        refine h.erase_of_ne (fun hd => ?_) hg
        rw [h.debounce_kind timer hd] at hkind
        cases hkind

lemma close (h : c.Tracks timers) :
    c.close.controller.Tracks (c.close.effects.foldl Effect.applyTo timers) := by
  unfold Controller.close
  split
  next => exact h
  next =>
    have hempty : (stop c.debounce ++ stop c.grace).foldl Effect.applyTo timers = ∅ := by
      apply Finset.eq_empty_of_forall_notMem
      intro timer
      rw [List.foldl_append, mem_foldl_stop, mem_foldl_stop, h.mem_iff]
      rintro ⟨⟨hd | hg, hnd⟩, hng⟩
      · exact hnd hd
      · exact hng hg
    dsimp only
    rw [hempty]
    constructor <;> simp

/-- One step keeps track, whatever the input. -/
lemma step (h : c.Tracks timers) (t : Converter) (input : Input) :
    (c.step t input).controller.Tracks (c.timersAfterStep t timers input) := by
  cases input with
  | change event => exact h.change t event
  | fire timer => exact h.fire t timer
  | close => exact h.close

/-- A whole run keeps track. -/
lemma run (h : c.Tracks timers) (t : Converter) (inputs : List Input) :
    (c.run t inputs).controller.Tracks (c.timersAfter t timers inputs) := by
  induction inputs generalizing c timers with
  | nil => exact h
  | cons input rest ih => exact ih (h.step t input)

end Tracks

/-! ## Accepted changes -/

/-- The change that an input makes, if it is accepted. -/
def acceptedOf (c : Controller) : Input → Option Change
  | .change event => if c.accepts event then some event.change else none
  | .fire _ => none
  | .close => none

/-- The changes that are accepted during a run, in their order. -/
def accepted (t : Converter) (c : Controller) : List Input → List Change
  | [] => []
  | input :: rest =>
    (c.acceptedOf input).toList ++ accepted t (c.step t input).controller rest

end Controller

end AgentScript.Editing
