import AgentScript.Proofs.Editing.Agreement
import AgentScript.Proofs.Editing.Bookkeeping
import AgentScript.Proofs.Editing.Loops

/-!
# Every document comes to rest in the same way

When nobody changes anything any more, all that still happens to a document is that its outstanding
timers are handed in.  A grace timer that is handed in only ends a phase.  A debounce timer carries
the graph over, and with that it starts the grace timer anew, so it matters which of the two comes
first: the timers that come later are different ones.  It does not matter in the end.

`calmed` says where it ends, without any order: the graph is carried over if that is still to be
done, and the phase is over.  Every timer that is handed in while it is outstanding leaves this end
where it is (`Tracks.calmed_fire`) and takes away from the fires that are still possible
(`Tracks.firesLeft_fire`), and a document that has come to rest is its own end (`Books.at_rest`).
-/

namespace AgentScript.Editing.Controller

variable {t : Converter} {c : Controller} {timers : Finset Timer} {timer : Timer}
  {fires : List Timer}

/-- The timers can be handed in one after the other: each is outstanding when its turn comes. -/
inductive Due (t : Converter) : Controller → Finset Timer → List Timer → Prop where
  | nil {c : Controller} {timers : Finset Timer} : Due t c timers []
  | cons {c : Controller} {timers : Finset Timer} {timer : Timer} {fires : List Timer}
      (outstanding : timer ∈ timers)
      (rest : Due t (c.step t (.fire timer)).controller (c.timersAfterStep t timers (.fire timer))
        fires) :
      Due t c timers (timer :: fires)

/-- What is left of a controller when all its timers have been handed in. -/
def calmed (t : Converter) (c : Controller) : Controller :=
  if c.debounce.isSome then (c.spendDebounce.carryGraph t).controller.spendGrace else c.spendGrace

/-- The most fires that are still possible: a debounce timer is followed by a grace timer. -/
def firesLeft (c : Controller) : Nat := 2 * c.debounce.toList.length + c.grace.toList.length

/-! ## One fire -/

/-- An outstanding timer is one of the two that the controller awaits. -/
lemma Tracks.fire_cases (h : c.Tracks timers) (t : Converter) (hmem : timer ∈ timers) :
    c.debounce = some timer ∧ c.fire t timer = c.spendDebounce.carryGraph t ∨
      c.grace = some timer ∧ c.fire t timer = ⟨c.spendGrace, [], []⟩ := by
  have hcourse := course_fire t c timer
  generalize c.fire t timer = o at hcourse
  cases hcourse with
  | dropped _ hstale => exact absurd hmem (h.notMem_of_stale (hstale timer rfl))
  | debounce _ _ hset => exact .inl ⟨hset, rfl⟩
  | grace _ _ hset => exact .inr ⟨hset, rfl⟩

/-- The phase that a controller was in, and the grace timer that it had set, are forgotten when the
graph is carried over. -/
lemma carryGraph_spendGrace (t : Converter) (c : Controller) :
    (c.spendGrace.carryGraph t).controller = (c.carryGraph t).controller := by
  unfold carryGraph
  dsimp only [spendGrace]
  split
  next => rfl
  next => rfl

/-- The end does not depend on which timer is handed in. -/
lemma Tracks.calmed_fire (h : c.Tracks timers) (t : Converter) (hmem : timer ∈ timers) :
    (c.fire t timer).controller.calmed t = c.calmed t := by
  obtain ⟨hset, hfire⟩ | ⟨-, hfire⟩ := h.fire_cases t hmem
  · have hnone : (c.spendDebounce.carryGraph t).controller.debounce = none := by
      obtain ⟨document, shown, heq, -⟩ := carryGraph_eq t c.spendDebounce
      rw [heq]
      rfl
    rw [hfire, calmed, calmed, hnone, hset]
    rfl
  · rw [hfire, calmed, calmed]
    change (if c.debounce.isSome then
      (c.spendDebounce.spendGrace.carryGraph t).controller.spendGrace else c.spendGrace) = _
    rw [carryGraph_spendGrace]

lemma Tracks.firesLeft_fire (h : c.Tracks timers) (t : Converter) (hmem : timer ∈ timers) :
    (c.fire t timer).controller.firesLeft + 1 ≤ c.firesLeft := by
  obtain ⟨hset, hfire⟩ | ⟨hset, hfire⟩ := h.fire_cases t hmem
  · obtain ⟨document, shown, heq, -⟩ := carryGraph_eq t c.spendDebounce
    rw [hfire, heq, firesLeft, firesLeft, hset]
    exact Nat.le_add_right 2 _
  · rw [hfire, firesLeft, firesLeft, hset]
    exact Nat.le_refl _

/-- What a timer that is handed in shows is a script. -/
lemma Tracks.updates_fire (h : c.Tracks timers) (t : Converter) (hmem : timer ∈ timers) :
    ∀ update ∈ updates (c.fire t timer).effects, ∃ revision text, update = .text revision text := by
  obtain ⟨-, hfire⟩ | ⟨-, hfire⟩ := h.fire_cases t hmem
  · obtain ⟨document, shown, heq, -, -, -, hshown⟩ := carryGraph_eq t c.spendDebounce
    rw [hfire, heq, updates_beginGrace]
    obtain rfl | ⟨revision, text, rfl⟩ := hshown
    · nofun
    · intro update hupdate
      exact ⟨revision, text, List.mem_singleton.1 hupdate⟩
  · rw [hfire]
    nofun

/-! ## At rest -/

lemma firesLeft_le (c : Controller) : c.firesLeft ≤ 3 := by
  have hdebounce : c.debounce.toList.length ≤ 1 := by cases c.debounce <;> simp
  have hgrace : c.grace.toList.length ≤ 1 := by cases c.grace <;> simp
  unfold firesLeft
  omega

/-- Where no more fires are possible, no timer is outstanding. -/
lemma Tracks.eq_empty_of_firesLeft (h : c.Tracks timers) (hnone : c.firesLeft = 0) :
    timers = ∅ := by
  apply Finset.eq_empty_of_forall_notMem
  intro timer hmem
  rw [h.mem_iff] at hmem
  obtain hset | hset := hmem
  · simp [firesLeft, hset] at hnone
  · simp [firesLeft, hset] at hnone

lemma Tracks.none_of_empty (h : c.Tracks ∅) (kind : TimerKind) : c.awaited kind = none := by
  rw [Option.eq_none_iff_forall_ne_some]
  intro timer hset
  exact Finset.notMem_empty timer (h.mem_of_awaited kind hset)

/-- A timer is outstanding as long as the document is in a phase or a change is pending. -/
lemma Books.nonempty_iff {last : Option Side} (hbooks : c.Books last) (h : c.Tracks timers) :
    timers.Nonempty ↔ c.document.phase ≠ .idle ∨ c.document.pending = true := by
  have hkinds : timers.Nonempty ↔
      (∃ timer ∈ timers, timer.kind = .grace) ∨ ∃ timer ∈ timers, timer.kind = .debounce := by
    constructor
    · rintro ⟨timer, hmem⟩
      cases hkind : timer.kind with
      | debounce => exact .inr ⟨timer, hmem, hkind⟩
      | grace => exact .inl ⟨timer, hmem, hkind⟩
    · rintro (⟨timer, hmem, -⟩ | ⟨timer, hmem, -⟩)
      · exact ⟨timer, hmem⟩
      · exact ⟨timer, hmem⟩
  rw [hkinds, h.exists_iff, h.exists_iff, hbooks.pending_eq, ne_eq, hbooks.idle_iff, ← ne_eq,
    Option.isSome_iff_ne_none]
  rfl

/-- A document with no timer left is at rest, and where it ends. -/
lemma Books.at_rest {last : Option Side} (hbooks : c.Books last) (h : c.Tracks ∅) (t : Converter) :
    c.document.phase = .idle ∧ c.document.pending = false ∧ c.calmed t = c := by
  have hdebounce : c.debounce = none := h.none_of_empty .debounce
  have hgrace : c.grace = none := h.none_of_empty .grace
  have hidle := hbooks.idle_iff.2 hgrace
  refine ⟨hidle, ?_, ?_⟩
  · rw [hbooks.pending_eq, hdebounce]
    rfl
  · rw [calmed, hdebounce]
    change { c with grace := none, document := { c.document with phase := .idle } } = c
    rw [← hgrace, ← hidle]

/-! ## All fires -/

namespace Due

/-- What each outstanding timer keeps, all of them keep. -/
lemma calmed_run (h : Due t c timers fires) (htracks : c.Tracks timers) :
    (c.run t (fires.map .fire)).controller.calmed t = c.calmed t := by
  induction h with
  | nil => rfl
  | cons hmem _ ih => exact (ih (htracks.step t _)).trans (htracks.calmed_fire t hmem)

lemma length_le (h : Due t c timers fires) (htracks : c.Tracks timers) :
    fires.length + (c.run t (fires.map .fire)).controller.firesLeft ≤ c.firesLeft := by
  induction h with
  | nil => exact (Nat.zero_add _).le
  | @cons c timers timer fires hmem _ ih =>
    have hfire : (c.step t (.fire timer)).controller.firesLeft + 1 ≤ c.firesLeft :=
      htracks.firesLeft_fire t hmem
    have hrest := ih (htracks.step t _)
    simp only [List.map_cons, run, List.length_cons]
    omega

lemma updates_run (h : Due t c timers fires) (htracks : c.Tracks timers) :
    ∀ update ∈ updates (c.run t (fires.map .fire)).effects,
      ∃ revision text, update = .text revision text := by
  induction h with
  | nil => nofun
  | cons hmem _ ih =>
    intro update hupdate
    rw [List.map_cons, run, updates_append, List.mem_append] at hupdate
    obtain hfirst | hrest := hupdate
    · exact htracks.updates_fire t hmem update hfirst
    · exact ih (htracks.step t _) update hrest

/-- As long as a timer is outstanding, there is a next one to hand in. -/
lemma concat (h : Due t c timers fires)
    (hmem : timer ∈ c.timersAfter t timers (fires.map .fire)) :
    Due t c timers (fires ++ [timer]) := by
  induction h with
  | nil => exact .cons hmem .nil
  | cons hfirst _ ih => exact .cons hfirst (ih hmem)

end Due

lemma accepted_fires (t : Converter) (c : Controller) (fires : List Timer) :
    c.accepted t (fires.map .fire) = [] := by
  induction fires generalizing c with
  | nil => rfl
  | cons timer fires ih => exact ih _

/-- **A document comes to rest in one way.**  Take any run of a new controller, and then hand in
timers that are outstanding when their turn comes.

* A timer is outstanding exactly as long as the document is in a phase or a change is pending, and
  one of them can be handed in next.
* At most three timers are handed in, and after three none is outstanding.
* At most one update is shown on the way, and it is a script.
* When no timer is outstanding, the phase is idle and nothing is pending; and every other order that
  leads there leads to the same controller. -/
theorem rests_in_one_way (t : Converter) (delays : Delays) (inputs : List Input) :
    let c := ((new delays).run t inputs).controller
    let timers := (new delays).timersAfter t ∅ inputs
    ∀ fires, Due t c timers fires →
      let o := c.run t (fires.map .fire)
      let left := c.timersAfter t timers (fires.map .fire)
      (left.Nonempty ↔ o.controller.document.phase ≠ .idle ∨ o.controller.document.pending = true) ∧
      (left.Nonempty → ∃ timer, Due t c timers (fires ++ [timer])) ∧
      fires.length ≤ 3 ∧ (fires.length = 3 → left = ∅) ∧
      (updates o.effects).length ≤ 1 ∧
      (∀ update ∈ updates o.effects, ∃ revision text, update = .text revision text) ∧
      (left = ∅ →
        o.controller.document.phase = .idle ∧ o.controller.document.pending = false ∧
        ∀ others, Due t c timers others → c.timersAfter t timers (others.map .fire) = ∅ →
          (c.run t (others.map .fire)).controller = o.controller) := by
  intro c timers fires hdue o left
  have htracks : c.Tracks timers := (tracks_new delays).run t inputs
  have hbooks := books_run (books_new delays) t inputs
  have hafter : o.controller.Tracks left := htracks.run t _
  have hbooksAfter := books_run hbooks t (fires.map .fire)
  have hlength := hdue.length_le htracks
  have hleft := c.firesLeft_le
  refine ⟨hbooksAfter.nonempty_iff hafter, ?_, by omega, fun hthree => ?_, ?_,
    hdue.updates_run htracks, fun hempty => ?_⟩
  · rintro ⟨timer, hmem⟩
    exact ⟨timer, hdue.concat hmem⟩
  · refine hafter.eq_empty_of_firesLeft ?_
    change (c.run t (fires.map .fire)).controller.firesLeft = 0
    omega
  · have hupdates := updates_run_le t c (fires.map .fire)
    have hone : c.debounce.toList.length ≤ 1 := by cases c.debounce <;> simp
    rw [accepted_fires, List.length_nil] at hupdates
    change (updates (c.run t (fires.map .fire)).effects).length ≤ 1
    omega
  · have hrest {others : List Timer} (hnone : c.timersAfter t timers (others.map .fire) = ∅) :=
      (books_run hbooks t (others.map .fire)).at_rest (hnone ▸ htracks.run t (others.map .fire)) t
    obtain ⟨hidle, hpending, hend⟩ := hrest hempty
    refine ⟨hidle, hpending, fun others hothers hnone => ?_⟩
    calc (c.run t (others.map .fire)).controller
        = (c.run t (others.map .fire)).controller.calmed t := (hrest hnone).2.2.symm
      _ = c.calmed t := hothers.calmed_run htracks
      _ = o.controller.calmed t := (hdue.calmed_run htracks).symm
      _ = o.controller := hend

/-- A script, and a graph that says something else: both timers are outstanding. -/
def twoTimers : List Input :=
  [.change ⟨.user, .text ""⟩, .change ⟨.user, .graph sampleGraph⟩]

/-- Whether the grace timer ends before the debounce timer or is stopped by it makes no
difference in the end. -/
theorem rests_in_one_way_twoTimers :
    let c := ((new {}).run (.standard {}) twoTimers).controller
    let timers := (new {}).timersAfter (.standard {}) ∅ twoTimers
    let early : List Timer := [⟨.grace, 1⟩, ⟨.debounce, 2⟩, ⟨.grace, 3⟩]
    let late : List Timer := [⟨.debounce, 2⟩, ⟨.grace, 3⟩]
    Due (.standard {}) c timers early ∧ Due (.standard {}) c timers late ∧
      c.timersAfter (.standard {}) timers (early.map .fire) = ∅ ∧
      (c.run (.standard {}) (late.map .fire)).controller =
        (c.run (.standard {}) (early.map .fire)).controller := by
  intro c timers early late
  have hearly : Due (.standard {}) c timers early :=
    .cons (by decide) (.cons (by decide) (.cons (by decide) .nil))
  have hlate : Due (.standard {}) c timers late := .cons (by decide) (.cons (by decide) .nil)
  have hnone : c.timersAfter (.standard {}) timers (late.map .fire) = ∅ := by decide
  obtain ⟨-, -, -, hthree, -, -, hrest⟩ := rests_in_one_way (.standard {}) {} twoTimers early hearly
  exact ⟨hearly, hlate, hthree rfl, (hrest (hthree rfl)).2.2 late hlate hnone⟩

end AgentScript.Editing.Controller
