import AgentScript.Proofs.Editing.Courses

/-!
# Timers and phases are kept exactly

The host of a controller learns of its timers from effects alone, and carries these out one by one.
So it matters not only which timers are outstanding after a step, but also which are between two
effects: a timer has to be cancelled before the next of its kind is set, and only an outstanding one
may be cancelled.  `Orderly` says this of a list of effects, and every step is orderly because it
sets a timer in one way only, right after stopping the one it replaces (`Tracks.orderly_restart`).

What the user sees of the timers is whether a change is pending, and the phase.  `Books` ties both
to the timers that the controller remembers, and the phase to the direction of the last conversion.
-/

namespace AgentScript.Editing

/-- The side whose content was carried over, in a phase other than the idle one. -/
def Phase.side? : Phase → Option Side
  | .idle => none
  | .fromText => some .text
  | .fromGraph => some .graph

/-- No two of the timers are of one kind. -/
def OnePerKind (timers : Finset Timer) : Prop :=
  ∀ timer ∈ timers, ∀ other ∈ timers, timer.kind = other.kind → timer = other

/-- Before, between and after the effects there is at most one timer of each kind, and each cancel
names a timer that is outstanding then. -/
def Orderly (timers : Finset Timer) : List Effect → Prop
  | [] => OnePerKind timers
  | effect :: rest =>
    OnePerKind timers ∧ (∀ timer, effect = .cancel timer → timer ∈ timers) ∧
      Orderly (effect.applyTo timers) rest

lemma OnePerKind.mono {timers fewer : Finset Timer} (h : OnePerKind timers) (hsub : fewer ⊆ timers) :
    OnePerKind fewer :=
  fun timer hmem other hother => h timer (hsub hmem) other (hsub hother)

lemma Input.useUp_subset (input : Input) (timers : Finset Timer) : input.useUp timers ⊆ timers := by
  cases input with
  | fire timer => exact Finset.erase_subset timer timers
  | change event => exact Finset.Subset.refl timers
  | close => exact Finset.Subset.refl timers

namespace Orderly

variable {timers : Finset Timer} {first second : List Effect}

lemma onePerKind (h : Orderly timers first) : OnePerKind timers := by
  cases first with
  | nil => exact h
  | cons effect rest => exact h.1

lemma append_iff :
    Orderly timers (first ++ second) ↔
      Orderly timers first ∧ Orderly (first.foldl Effect.applyTo timers) second := by
  induction first generalizing timers with
  | nil => exact ⟨fun h => ⟨h.onePerKind, h⟩, fun h => h.2⟩
  | cons effect rest ih => simp only [List.cons_append, Orderly, List.foldl_cons, ih, and_assoc]

lemma stop {stopped : Option Timer} (h : OnePerKind timers)
    (hmem : ∀ timer, stopped = some timer → timer ∈ timers) :
    Orderly timers (Controller.stop stopped) := by
  cases stopped with
  | none => exact h
  | some old =>
    refine ⟨h, ?_, h.mono (Finset.erase_subset old timers)⟩
    rintro _ ⟨⟩
    exact hmem old rfl

lemma schedule {timer : Timer} {delay : Nat} (h : OnePerKind timers)
    (hfree : ∀ other ∈ timers, other.kind ≠ timer.kind) :
    Orderly timers [.schedule timer delay] := by
  refine ⟨h, nofun, ?_⟩
  intro one hone other hother hkind
  simp only [Effect.applyTo, Finset.mem_insert] at hone hother
  obtain rfl | hone := hone
  · obtain rfl | hother := hother
    · rfl
    · exact absurd hkind.symm (hfree other hother)
  · obtain rfl | hother := hother
    · exact absurd hkind (hfree one hone)
    · exact h one hone other hother hkind

lemma shown {effects : List Effect} (h : OnePerKind timers)
    (hshown : ∀ effect ∈ effects, effect.update? ≠ none) : Orderly timers effects := by
  induction effects with
  | nil => exact h
  | cons effect rest ih =>
    rw [List.forall_mem_cons] at hshown
    cases effect with
    | applyGraph => exact ⟨h, nofun, ih hshown.2⟩
    | applyText => exact ⟨h, nofun, ih hshown.2⟩
    | schedule | cancel => exact absurd rfl hshown.1

end Orderly

namespace Controller

variable {t : Converter} {c : Controller} {timers : Finset Timer} {input : Input} {o : Outcome}

/-! ## Effects -/

lemma Tracks.onePerKind (h : c.Tracks timers) : OnePerKind timers := by
  intro timer htimer other hother hkind
  rw [h.mem_iff_awaited] at htimer hother
  rw [hkind, hother] at htimer
  exact (Option.some.inj htimer).symm

lemma Tracks.exists_iff (h : c.Tracks timers) (kind : TimerKind) :
    (∃ timer ∈ timers, timer.kind = kind) ↔ (c.awaited kind).isSome = true := by
  rw [Option.isSome_iff_exists]
  constructor
  · rintro ⟨timer, hmem, rfl⟩
    exact ⟨timer, (h.mem_iff_awaited timer).1 hmem⟩
  · rintro ⟨timer, hset⟩
    exact ⟨timer, h.mem_of_awaited _ hset, h.kind_of_awaited hset⟩

/-- A timer is set right after the one of its kind is stopped. -/
lemma Tracks.orderly_restart (h : c.Tracks timers) (kind : TimerKind) (delay : Nat) :
    Orderly timers (stop (c.awaited kind) ++ [.schedule (c.nextTimer kind) delay]) := by
  have hstop : Orderly timers (stop (c.awaited kind)) :=
    Orderly.stop h.onePerKind fun _ hset => h.mem_of_awaited _ hset
  rw [Orderly.append_iff]
  refine ⟨hstop, Orderly.schedule ?_ ?_⟩
  · apply h.onePerKind.mono
    intro timer hmem
    exact (mem_foldl_stop.1 hmem).1
  · intro other hother hkind
    rw [mem_foldl_stop, h.mem_iff_awaited, hkind] at hother
    exact hother.2 hother.1

lemma Tracks.orderly_beginGrace (h : c.Tracks timers) {start : Finset Timer} {before : List Effect}
    (hbefore : Orderly start before) (hleft : before.foldl Effect.applyTo start = timers)
    (conversions : List Conversion) :
    Orderly start (c.beginGrace before conversions).effects := by
  rw [beginGrace_effects, Orderly.append_iff, hleft]
  exact ⟨hbefore, h.orderly_restart .grace _⟩

lemma Tracks.orderly_carryText (h : c.Tracks timers) (hopen : c.closed = false) (t : Converter)
    (text : String) : Orderly timers (c.carryText t text).effects := by
  have hstop : Orderly timers (stop c.debounce) :=
    Orderly.stop h.onePerKind fun _ hset => h.mem_of_awaited .debounce hset
  refine (h.dropDebounce hopen (fun timer => mem_foldl_stop) _).orderly_beginGrace ?_ ?_ _
  · rw [Orderly.append_iff]
    refine ⟨hstop, Orderly.shown ?_ ?_⟩
    · apply h.onePerKind.mono
      intro timer hmem
      exact (mem_foldl_stop.1 hmem).1
    · simp [Effect.update?]
  · rw [List.foldl_append]
    rfl

lemma Tracks.spendDebounce (h : c.Tracks timers) (hopen : c.closed = false) {timer : Timer}
    (hset : c.debounce = some timer) : c.spendDebounce.Tracks (timers.erase timer) := by
  refine h.dropDebounce hopen (fun other => ?_) _
  rw [Finset.mem_erase, hset, and_comm, ne_eq, ne_eq, Option.some.injEq, eq_comm]

lemma Tracks.orderly_carryGraph (h : c.Tracks timers) (t : Converter) :
    Orderly timers (c.carryGraph t).effects := by
  obtain ⟨document, shown, heq, -, -, -, hshown⟩ := carryGraph_eq t c
  rw [heq]
  refine (h.setDocument document).orderly_beginGrace (Orderly.shown h.onePerKind ?_) ?_ _
  · obtain rfl | ⟨revision, text, rfl⟩ := hshown
    · simp
    · simp [Effect.update?]
  · obtain rfl | ⟨revision, text, rfl⟩ := hshown
    · rfl
    · rfl

/-- The effects of a step can be carried out one by one, from the timers that the input leaves. -/
lemma Tracks.orderly_step (h : c.Tracks timers) (t : Converter) (input : Input) :
    Orderly (input.useUp timers) (c.step t input).effects := by
  have hinput : OnePerKind (input.useUp timers) := h.onePerKind.mono (input.useUp_subset timers)
  have hcourse := course t c input
  generalize c.step t input = o at hcourse
  cases hcourse with
  | dropped | grace => exact hinput
  | text haccepts => exact h.orderly_carryText (unclosed_of_accepts haccepts) t _
  | graph => exact h.orderly_restart .debounce _
  | debounce hopen _ hset => exact (h.spendDebounce hopen hset).orderly_carryGraph t
  | close =>
    rw [Orderly.append_iff]
    refine ⟨Orderly.stop hinput fun _ hd => h.mem_of_awaited .debounce hd, ?_⟩
    refine Orderly.stop ?_ fun timer hg => ?_
    · apply hinput.mono
      intro timer hmem
      exact (mem_foldl_stop.1 hmem).1
    · rw [mem_foldl_stop]
      exact ⟨h.mem_of_awaited .grace hg, fun hd => h.ne_of_debounce hd hg⟩

/-! ## Flags and phases -/

/-- A document says that a change is pending as long as the debounce timer is set, and names the
side that was carried over last as long as the grace timer is set. -/
structure Books (c : Controller) (last : Option Side) : Prop where
  pending_eq : c.document.pending = c.debounce.isSome
  idle_iff : c.document.phase = .idle ↔ c.grace = none
  phase_eq : c.document.phase = .idle ∨ c.document.phase.side? = last

lemma books_new (delays : Delays) : (new delays).Books none :=
  ⟨rfl, ⟨fun _ => rfl, fun _ => rfl⟩, .inl rfl⟩

lemma Course.books (h : Course t c input o) {last : Option Side} (hbooks : c.Books last) :
    o.controller.Books ((o.conversions.map Conversion.side).getLast?.or last) := by
  cases h with
  | dropped => exact hbooks
  | text =>
    refine ⟨?_, ⟨nofun, nofun⟩, .inr rfl⟩
    -- The flag is only lowered if the timer was set.
    change (if c.debounce.isSome then false else c.document.pending) = false
    rw [hbooks.pending_eq]
    split
    next => rfl
    next hnone => exact Bool.not_eq_true _ ▸ hnone
  | graph => exact ⟨rfl, hbooks.idle_iff, hbooks.phase_eq⟩
  | debounce =>
    obtain ⟨document, shown, heq, hphase, hpending, -⟩ := carryGraph_eq t c.spendDebounce
    rw [heq]
    have hbusy : document.phase ≠ .idle := by
      rw [hphase]
      exact nofun
    refine ⟨hpending, ⟨fun hidle => absurd hidle hbusy, nofun⟩, .inr ?_⟩
    change document.phase.side? = _
    rw [hphase]
    rfl
  | grace => exact ⟨hbooks.pending_eq, ⟨fun _ => rfl, fun _ => rfl⟩, .inl rfl⟩
  | close => exact ⟨rfl, ⟨fun _ => rfl, fun _ => rfl⟩, .inl rfl⟩

lemma books_run {last : Option Side} (hbooks : c.Books last) (t : Converter)
    (inputs : List Input) :
    (c.run t inputs).controller.Books
      (((c.run t inputs).conversions.map Conversion.side).getLast?.or last) := by
  induction inputs generalizing c last with
  | nil => exact hbooks
  | cons input rest ih =>
    have hrest := ih ((course t c input).books hbooks)
    rw [← Option.or_assoc, ← List.getLast?_append, ← List.map_append] at hrest
    exact hrest

/-! ## Fires -/

/-- A timer does something exactly if it is outstanding. -/
lemma Tracks.fires_iff (h : c.Tracks timers) (t : Converter) (timer : Timer) :
    timer ∈ timers ↔ (c.fire t timer).controller ≠ c ∨ (c.fire t timer).effects ≠ [] := by
  have hcourse := course_fire t c timer
  generalize c.fire t timer = o at hcourse
  cases hcourse with
  | dropped _ hstale => simp [h.notMem_of_stale (hstale timer rfl)]
  | debounce _ _ hset =>
    obtain ⟨document, shown, heq, -⟩ := carryGraph_eq t c.spendDebounce
    refine iff_of_true (h.mem_of_awaited .debounce hset) (.inl fun hsame => ?_)
    have hnone := congrArg Controller.debounce hsame
    rw [heq, hset] at hnone
    cases hnone
  | grace _ _ hset =>
    refine iff_of_true (h.mem_of_awaited .grace hset) (.inl fun hsame => ?_)
    have hnone := congrArg Controller.grace hsame
    rw [hset] at hnone
    cases hnone

/-! ## Runs -/

lemma pairwise_token_scheduled (t : Converter) (c : Controller) (inputs : List Input) :
    (scheduled (c.run t inputs).effects).Pairwise (·.token < ·.token) := by
  obtain ⟨count, htokens, -⟩ := numbered_run t c inputs
  have hrising := List.pairwise_lt_range' (s := c.lastToken + 1) (n := count) 1
  rw [← htokens, List.pairwise_map] at hrising
  exact hrising

/-- **The books are exact over whole runs.**  Take any run of a new controller and the timers
outstanding after it.

* Every timer was set with a token larger than all before it.
* Whatever the next input, at every point of its step at most one timer of each kind is outstanding,
  and a timer is cancelled only while it is outstanding.
* A debounce timer is outstanding exactly if a change is pending, and a grace timer exactly if the
  phase is not idle; the phase then names the direction of what was carried over last.
* Handing in a timer does something exactly if it is outstanding.
* After a close nothing is outstanding, the phase is idle, and no input does anything. -/
theorem books_exact (t : Converter) (delays : Delays) (inputs : List Input) :
    let o := (new delays).run t inputs
    let c := o.controller
    let timers := (new delays).timersAfter t ∅ inputs
    (scheduled o.effects).Pairwise (·.token < ·.token) ∧
    (∀ input before after, (c.step t input).effects = before ++ after →
      let present := before.foldl Effect.applyTo (input.useUp timers)
      OnePerKind present ∧ ∀ timer rest, after = .cancel timer :: rest → timer ∈ present) ∧
    ((∃ timer ∈ timers, timer.kind = .debounce) ↔ c.document.pending = true) ∧
    ((∃ timer ∈ timers, timer.kind = .grace) ↔ c.document.phase ≠ .idle) ∧
    (c.document.phase ≠ .idle →
      c.document.phase.side? = ((new delays).carried t ∅ inputs).getLast?) ∧
    (∀ timer, timer ∈ timers ↔
      (c.fire t timer).controller ≠ c ∨ (c.fire t timer).effects ≠ []) ∧
    (.close ∈ inputs →
      timers = ∅ ∧ c.document.phase = .idle ∧ ∀ input, c.step t input = ⟨c, [], []⟩) := by
  have htracks := (tracks_new delays).run t inputs
  have hbooks := books_run (books_new delays) t inputs
  rw [Option.or_none, carried_run (tracks_new delays)] at hbooks
  refine ⟨pairwise_token_scheduled t _ inputs, ?_, ?_, ?_, ?_, htracks.fires_iff t, ?_⟩
  · intro input before after heffects
    have horderly := htracks.orderly_step t input
    rw [heffects, Orderly.append_iff] at horderly
    refine ⟨horderly.2.onePerKind, ?_⟩
    rintro timer rest rfl
    exact horderly.2.2.1 timer rfl
  · rw [htracks.exists_iff, hbooks.pending_eq]
    rfl
  · rw [htracks.exists_iff, ne_eq, hbooks.idle_iff, ← ne_eq, Option.isSome_iff_ne_none]
    rfl
  · intro hbusy
    exact hbooks.phase_eq.resolve_left hbusy
  · intro hclose
    have hclosed := closed_of_close_mem t (new delays) hclose
    have hempty := htracks.eq_empty_of_closed hclosed
    refine ⟨hempty, hbooks.idle_iff.2 ?_, step_of_closed t hclosed⟩
    rw [Option.eq_none_iff_forall_ne_some]
    intro timer hset
    have hmem := htracks.mem_of_awaited .grace hset
    rw [hempty] at hmem
    exact Finset.notMem_empty timer hmem

end Controller

end AgentScript.Editing
