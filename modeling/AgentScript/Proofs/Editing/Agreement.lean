import AgentScript.Proofs.Editing.History

/-!
# The last accepted change decides the document

A change is carried over to the other side at one of three moments: a script at once, a graph when
its debounce timer fires, and a regenerated script only where it differs from the one at hand.
Echoes, presumed echoes, timers that were replaced and changes that come in between arrive in any
order.  None of this loses a change: after every run, both sides are those of the change accepted
last, or the graph is and a debounce timer is on its way to carry it over.

What the controller owes to the change accepted last is `Honours`, the invariant of the induction.
It has to name that change, since nothing in the state of a controller does.
-/

namespace AgentScript.Editing.Controller

variable {t : Converter} {c : Controller} {last : Option Change}

/-- What the two sides of a document owe to the change that was accepted last. -/
def SidesHonour (t : Converter) (d : Document) : Option Change → Prop
  | none => True
  | some (.text text) =>
    d.text = text ∧ (d.graph, d.diagnostics) = t.toGraph text ∧ d.pending = false
  | some (.graph graph) =>
    d.graph = graph ∧ (d.pending = true ∨ Script.equivalent (t.toText graph) d.text = true)

/-- A controller honours the change it accepted last, and a graph is pending exactly as long as a
debounce timer is set. -/
structure Honours (t : Converter) (c : Controller) (last : Option Change) : Prop where
  pending_eq : c.document.pending = c.debounce.isSome
  sides : SidesHonour t c.document last

lemma honours_new (t : Converter) (delays : Delays) : (new delays).Honours t none :=
  ⟨rfl, trivial⟩

lemma equivalent_self (text : String) : Script.equivalent text text = true := by
  rw [Script.equivalent, beq_self_eq_true]

/-! ## Steps -/

lemma honours_carryText (h : c.Honours t last) (text : String) :
    (c.carryText t text).controller.Honours t (some (.text text)) := by
  have hpending : (if c.debounce.isSome then false else c.document.pending) = false := by
    rw [h.pending_eq]
    split
    next => rfl
    next hnone => simpa using hnone
  exact ⟨hpending, rfl, rfl, hpending⟩

lemma honours_keepGraph (t : Converter) (c : Controller) (graph : Graph) :
    (c.keepGraph graph).controller.Honours t (some (.graph graph)) :=
  ⟨rfl, rfl, .inl rfl⟩

/-- Carrying a graph over keeps what is owed.  It only happens with a graph pending, and a graph is
pending only if it was accepted last. -/
lemma honours_carryGraph (h : SidesHonour t c.document last) (hpending : c.document.pending = true) :
    ({ c with
        debounce := none
        document := { c.document with pending := false } }.carryGraph t).controller.Honours t
      last := by
  cases last with
  | none =>
    unfold carryGraph
    dsimp only
    split
    · exact ⟨rfl, trivial⟩
    · exact ⟨rfl, trivial⟩
  | some change =>
    cases change with
    | text text =>
      rw [h.2.2] at hpending
      cases hpending
    | graph graph =>
      have hgraph : c.document.graph = graph := h.1
      unfold carryGraph
      dsimp only
      split
      next hsame => exact ⟨rfl, hgraph, .inr (hgraph ▸ hsame)⟩
      next =>
        refine ⟨rfl, hgraph, .inr ?_⟩
        rw [← hgraph]
        exact equivalent_self _

lemma honours_change (h : c.Honours t last) (event : ReportedChange) :
    (c.change t event).controller.Honours t ((c.acceptedOf (.change event)).or last) := by
  unfold change
  by_cases haccepts : c.accepts event = true
  · simp only [acceptedOf, haccepts, if_true, Option.some_or]
    cases event.change with
    | text text => exact honours_carryText h text
    | graph graph => exact honours_keepGraph t c graph
  · simp only [acceptedOf, haccepts, Bool.false_eq_true, if_false, Option.none_or]
    exact h

lemma honours_fire (h : c.Honours t last) (timer : Timer) :
    (c.fire t timer).controller.Honours t last := by
  unfold fire
  split
  next => exact h
  next =>
    split
    next =>
      split
      next hd =>
        have hpending := h.pending_eq
        rw [hd, Option.isSome_some] at hpending
        exact honours_carryGraph h.sides hpending
      next => exact h
    next =>
      split
      next =>
        refine ⟨h.pending_eq, ?_⟩
        -- The phase is no part of what is owed.
        cases last with
        | none => trivial
        | some change =>
          cases change with
          | text text => exact h.sides
          | graph graph => exact h.sides
      next => exact h

lemma honours_step (h : c.Honours t last) {input : Input} (hopen : input ≠ .close) :
    (c.step t input).controller.Honours t ((c.acceptedOf input).or last) := by
  cases input with
  | change event => exact honours_change h event
  | fire timer => exact honours_fire h timer
  | close => exact absurd rfl hopen

/-! ## Runs -/

lemma honours_run (h : c.Honours t last) {inputs : List Input} (hopen : Input.close ∉ inputs) :
    (c.run t inputs).controller.Honours t ((c.accepted t inputs).getLast?.or last) := by
  induction inputs generalizing c last with
  | nil => simpa [accepted, run] using h
  | cons input rest ih =>
    rw [List.mem_cons, not_or] at hopen
    have hrest := ih (honours_step h (Ne.symm hopen.1)) hopen.2
    have hlast : (c.acceptedOf input).toList.getLast? = c.acceptedOf input := by
      cases c.acceptedOf input <;> rfl
    rw [accepted, List.getLast?_append, hlast, Option.or_assoc]
    exact hrest

/-- **No accepted change is lost.**  Along any run without a close, a document whose last accepted
change is a script has that script, and with it the graph and the diagnostics of the script, and
nothing is pending.  A document whose last accepted change is a graph has that graph; either it is
pending and a debounce timer is outstanding, or the script is equivalent to the one of the graph. -/
theorem sides_of_last_accepted (t : Converter) (delays : Delays) (inputs : List Input)
    (hopen : Input.close ∉ inputs) :
    let d := ((new delays).run t inputs).controller.document
    let accepted := (new delays).accepted t inputs
    let timers := (new delays).timersAfter t ∅ inputs
    (∀ text, accepted.getLast? = some (.text text) →
      d.text = text ∧ (d.graph, d.diagnostics) = t.toGraph text ∧ d.pending = false) ∧
    (∀ graph, accepted.getLast? = some (.graph graph) →
      d.graph = graph ∧
        ((d.pending = true ∧ ∃ timer ∈ timers, timer.kind = .debounce) ∨
          (d.pending = false ∧ Script.equivalent (t.toText graph) d.text = true))) := by
  have h := honours_run (honours_new t delays) hopen
  have htracks := (tracks_new delays).run t inputs
  rw [Option.or_none] at h
  refine ⟨fun text htext => ?_, fun graph hgraph => ?_⟩
  · rw [htext] at h
    exact h.sides
  · rw [hgraph] at h
    obtain ⟨hsame, hpending⟩ := h.sides
    refine ⟨hsame, ?_⟩
    cases hd : ((new delays).run t inputs).controller.debounce with
    | none =>
      have hnot := h.pending_eq
      rw [hd, Option.isSome_none] at hnot
      refine .inr ⟨hnot, hpending.resolve_left ?_⟩
      rw [hnot]
      exact Bool.false_ne_true
    | some timer =>
      have hset := h.pending_eq
      rw [hd, Option.isSome_some] at hset
      exact .inl ⟨hset, timer, (htracks.mem_iff timer).2 (.inl hd), htracks.debounce_kind timer hd⟩

/-- A graph with one agent. -/
def sampleGraph : Graph := { nodes := [⟨"b", ⟨0, 0⟩, .agent { label := "B" }⟩] }

/-- A script, a graph that is taken for its echo, a graph of the user's, and a stale timer. -/
def sampleInputs : List Input :=
  [.change ⟨.user, .text "agent A \x7b\n\x7d\n"⟩, .change ⟨.unknown, .graph {}⟩,
    .change ⟨.user, .graph sampleGraph⟩, .fire ⟨.debounce, 1⟩]

theorem sides_of_sampleInputs :
    let d := ((new {}).run (.standard {}) sampleInputs).controller.document
    let timers := (new {}).timersAfter (.standard {}) ∅ sampleInputs
    Input.close ∉ sampleInputs ∧ d.graph = sampleGraph ∧
      ((d.pending = true ∧ ∃ timer ∈ timers, timer.kind = .debounce) ∨
        (d.pending = false ∧
          Script.equivalent (Graph.script sampleGraph) d.text = true)) := by
  have hopen : Input.close ∉ sampleInputs := by simp [sampleInputs]
  have hlast : ((new {}).accepted (.standard {}) sampleInputs).getLast? =
      some (.graph sampleGraph) := rfl
  exact ⟨hopen, (sides_of_last_accepted (.standard {}) {} sampleInputs hopen).2 _ hlast⟩

end AgentScript.Editing.Controller
