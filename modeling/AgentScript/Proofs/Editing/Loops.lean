import AgentScript.Proofs.Editing.Courses

/-!
# No change goes round in a circle

An update changes the view that shows it, and the view reports that change.  If the report were
carried over again, the two sides of a document would go on changing each other for ever.  Two
things rule this out.

Echoes, and timers that are not outstanding, leave no trace: wherever they are inserted into a run,
its outcome is the same (`Padded.run_eq`).

And whatever a controller does has its cause in an accepted change.  A script is converted when it
is accepted.  A graph is converted when the debounce timer is handed in, which is set only while
this graph is the change that was accepted last (`KeepsLast`), and is set anew only by another
accepted graph.  So the updates can be charged to the accepted changes: a set debounce timer is one
accepted change that was not used up (`Course.updates_le`).
-/

namespace AgentScript.Editing

/-- The script that is converted. -/
def Conversion.text? : Conversion → Option String
  | .ofText text => some text
  | .ofGraph _ => none

/-- The new script that a change reports. -/
def Change.text? : Change → Option String
  | .text script => some script
  | .graph _ => none

namespace Controller

variable {t : Converter} {c : Controller} {timers : Finset Timer} {input : Input} {o : Outcome}

/-! ## Insertions -/

/-- The second sequence of inputs is the first with echoes inserted into it, and with timers that
are not outstanding at the place where they are inserted. -/
inductive Padded (t : Converter) : Controller → Finset Timer → List Input → List Input → Prop where
  | nil {c : Controller} {timers : Finset Timer} : Padded t c timers [] []
  | keep {c : Controller} {timers : Finset Timer} {input : Input} {inputs padded : List Input}
      (rest : Padded t (c.step t input).controller (c.timersAfterStep t timers input)
        inputs padded) :
      Padded t c timers (input :: inputs) (input :: padded)
  | echo {c : Controller} {timers : Finset Timer} {inputs padded : List Input}
      (revision : Revision) (change : Change)
      (rest : Padded t (c.step t (.change ⟨.echo revision, change⟩)).controller
        (c.timersAfterStep t timers (.change ⟨.echo revision, change⟩)) inputs padded) :
      Padded t c timers inputs (.change ⟨.echo revision, change⟩ :: padded)
  | stale {c : Controller} {timers : Finset Timer} {inputs padded : List Input} {timer : Timer}
      (absent : timer ∉ timers)
      (rest : Padded t (c.step t (.fire timer)).controller
        (c.timersAfterStep t timers (.fire timer)) inputs padded) :
      Padded t c timers inputs (.fire timer :: padded)

lemma step_echo (t : Converter) (c : Controller) (revision : Revision) (change : Change) :
    c.step t (.change ⟨.echo revision, change⟩) = ⟨c, [], []⟩ := by
  refine if_neg ?_
  rw [accepts, Bool.and_false]
  exact Bool.false_ne_true

lemma Tracks.step_stale (h : c.Tracks timers) (t : Converter) {timer : Timer}
    (habsent : timer ∉ timers) : c.step t (.fire timer) = ⟨c, [], []⟩ := by
  have hcourse := course t c (.fire timer)
  generalize c.step t (.fire timer) = o at hcourse
  cases hcourse with
  | dropped => rfl
  | debounce _ _ hset => exact absurd (h.mem_of_awaited .debounce hset) habsent
  | grace _ _ hset => exact absurd (h.mem_of_awaited .grace hset) habsent

/-- What is inserted leaves no trace. -/
lemma Padded.run_eq {inputs padded : List Input} (h : Padded t c timers inputs padded)
    (htracks : c.Tracks timers) : c.run t padded = c.run t inputs := by
  induction h with
  | nil => rfl
  | keep _ ih => simp only [run, ih (htracks.step t _)]
  | echo revision change _ ih =>
    have hrest := ih (htracks.step t _)
    simp only [step_echo] at hrest
    simp only [run, step_echo, List.nil_append, hrest]
  | stale habsent _ ih =>
    have hrest := ih (htracks.step t _)
    simp only [htracks.step_stale t habsent] at hrest
    simp only [run, htracks.step_stale t habsent, List.nil_append, hrest]

/-! ## Causes -/

lemma Course.texts (h : Course t c input o) :
    o.conversions.filterMap Conversion.text? =
      (c.acceptedOf input).toList.filterMap Change.text? := by
  cases h with
  | dropped hrefused =>
    rw [hrefused]
    rfl
  | text haccepts | graph haccepts =>
    rw [acceptedOf, if_pos haccepts]
    rfl
  | debounce =>
    obtain ⟨document, shown, heq, -⟩ := carryGraph_eq t c.spendDebounce
    rw [heq]
    rfl
  | grace | close => rfl

lemma texts_run (t : Converter) (c : Controller) (inputs : List Input) :
    (c.run t inputs).conversions.filterMap Conversion.text? =
      (c.accepted t inputs).filterMap Change.text? := by
  induction inputs generalizing c with
  | nil => rfl
  | cons input rest ih =>
    rw [run, accepted, List.filterMap_append, List.filterMap_append, (course t c input).texts, ih]

/-- A debounce timer is only set while the graph at hand is the change that was accepted last. -/
def KeepsLast (c : Controller) (last : Option Change) : Prop :=
  c.debounce ≠ none → last = some (.graph c.document.graph)

lemma Course.keepsLast (h : Course t c input o) {last : Option Change} (hlast : c.KeepsLast last) :
    o.controller.KeepsLast ((c.acceptedOf input).or last) := by
  cases h with
  | dropped hrefused =>
    rw [hrefused]
    exact hlast
  | text => exact absurd rfl
  | graph haccepts =>
    rw [acceptedOf, if_pos haccepts]
    exact fun _ => rfl
  | debounce =>
    obtain ⟨document, shown, heq, -⟩ := carryGraph_eq t c.spendDebounce
    rw [heq]
    exact absurd rfl
  | grace => exact hlast
  | close => exact absurd rfl

lemma keepsLast_run {last : Option Change} (hlast : c.KeepsLast last) (t : Converter)
    (inputs : List Input) :
    (c.run t inputs).controller.KeepsLast ((c.accepted t inputs).getLast?.or last) := by
  induction inputs generalizing c last with
  | nil => exact hlast
  | cons input rest ih =>
    have hrest := ih ((course t c input).keepsLast hlast)
    have hfirst : (c.acceptedOf input).toList.getLast? = c.acceptedOf input := by
      cases c.acceptedOf input <;> rfl
    rw [accepted, List.getLast?_append, hfirst, Option.or_assoc]
    exact hrest

/-- A graph is converted as it is at hand, and this uses up the debounce timer. -/
lemma Course.ofGraph (h : Course t c input o) {graph : Graph}
    (hmem : .ofGraph graph ∈ o.conversions) :
    graph = c.document.graph ∧ c.debounce ≠ none ∧ o.controller.debounce = none := by
  cases h with
  | dropped | graph | grace | close => cases hmem
  | text =>
    cases List.mem_singleton.1 hmem
  | debounce _ _ hset =>
    obtain ⟨document, shown, heq, -⟩ := carryGraph_eq t c.spendDebounce
    rw [heq] at hmem ⊢
    cases List.mem_singleton.1 hmem
    exact ⟨rfl, by rw [hset]; nofun, rfl⟩

/-- Only an accepted graph sets the debounce timer. -/
lemma Course.debounce_none (h : Course t c input o) (hnone : c.debounce = none)
    (hgraph : ∀ graph, c.acceptedOf input ≠ some (.graph graph)) : o.controller.debounce = none := by
  cases h with
  | dropped | grace => exact hnone
  | text | close => rfl
  | graph haccepts => exact absurd (if_pos haccepts) (hgraph _)
  | debounce _ _ hset =>
    rw [hnone] at hset
    cases hset

lemma debounce_none_run (hnone : c.debounce = none) (t : Converter) {inputs : List Input}
    (hgraph : ∀ graph, .graph graph ∉ c.accepted t inputs) :
    (c.run t inputs).controller.debounce = none := by
  induction inputs generalizing c with
  | nil => exact hnone
  | cons input rest ih =>
    simp only [accepted, List.mem_append, Option.mem_toList, not_or] at hgraph
    exact ih ((course t c input).debounce_none hnone fun graph => (hgraph graph).1)
      fun graph => (hgraph graph).2

/-! ## Updates -/

@[simp] lemma updates_beginGrace (c : Controller) (before : List Effect)
    (conversions : List Conversion) :
    updates (c.beginGrace before conversions).effects = updates before := by
  rw [beginGrace_effects, updates_append, updates_append, updates_stop]
  exact List.append_nil _

/-- An update is charged to the change that is accepted, or to the debounce timer that is used. -/
lemma Course.updates_le (h : Course t c input o) :
    (updates o.effects).length + o.controller.debounce.toList.length ≤
      (c.acceptedOf input).toList.length + c.debounce.toList.length := by
  cases h with
  | dropped | grace => exact Nat.add_le_add_right (Nat.zero_le _) _
  | text haccepts =>
    rw [acceptedOf, if_pos haccepts, carryText, updates_beginGrace, updates_append, updates_stop]
    exact Nat.le_add_right _ _
  | graph haccepts =>
    rw [acceptedOf, if_pos haccepts, keepGraph, updates_append, updates_stop]
    exact Nat.le_add_right _ _
  | debounce _ _ hset =>
    obtain ⟨document, shown, heq, -, -, -, hshown⟩ := carryGraph_eq t c.spendDebounce
    rw [heq, hset, updates_beginGrace]
    obtain rfl | ⟨revision, text, rfl⟩ := hshown
    · exact Nat.zero_le 1
    · exact Nat.le_refl 1
  | close =>
    rw [updates_append, updates_stop, updates_stop]
    exact Nat.zero_le _

lemma updates_run_le (t : Converter) (c : Controller) (inputs : List Input) :
    (updates (c.run t inputs).effects).length +
        (c.run t inputs).controller.debounce.toList.length ≤
      (c.accepted t inputs).length + c.debounce.toList.length := by
  induction inputs generalizing c with
  | nil => exact Nat.le_refl _
  | cons input rest ih =>
    have hfirst := (course t c input).updates_le
    have hrest := ih (c.step t input).controller
    simp only [run, accepted, updates_append, List.length_append]
    omega

/-! ## Runs -/

/-- **The two sides do not keep changing each other.**

* Echoes, and timers that are not outstanding where they are handed in, change neither the state in
  which a run ends nor its effects.
* The converter is used once for every accepted script, which it is given, and once for every
  outstanding debounce timer that is handed in, and for nothing else.  There are no more updates than
  accepted changes.
* A graph that is converted is the change that was accepted last.
* Between two conversions of graphs a graph is accepted. -/
theorem no_loops (t : Converter) (delays : Delays) :
    (∀ inputs padded, Padded t (new delays) ∅ inputs padded →
      (new delays).run t padded = (new delays).run t inputs) ∧
    (∀ inputs,
      let o := (new delays).run t inputs
      let accepted := (new delays).accepted t inputs
      o.conversions.map Conversion.side = (new delays).carried t ∅ inputs ∧
      o.conversions.filterMap Conversion.text? = accepted.filterMap Change.text? ∧
      (updates o.effects).length ≤ accepted.length) ∧
    let before (inputs : List Input) := ((new delays).run t inputs).controller
    (∀ inputs input graph, .ofGraph graph ∈ ((before inputs).step t input).conversions →
      ((new delays).accepted t inputs).getLast? = some (.graph graph)) ∧
    (∀ inputs first between second graph graph',
      .ofGraph graph ∈ ((before inputs).step t first).conversions →
      .ofGraph graph' ∈ ((before (inputs ++ first :: between)).step t second).conversions →
      ∃ edit, .graph edit ∈ (before (inputs ++ [first])).accepted t between) := by
  refine ⟨fun inputs padded h => h.run_eq (tracks_new delays), fun inputs => ?_,
    fun inputs input graph hmem => ?_, fun inputs first between second graph graph' hfirst hsecond =>
      ?_⟩
  · refine ⟨carried_run (tracks_new delays) inputs, texts_run t (new delays) inputs, ?_⟩
    have hle := updates_run_le t (new delays) inputs
    change _ ≤ ((new delays).accepted t inputs).length + 0 at hle
    omega
  · obtain ⟨rfl, hset, -⟩ := (course t _ input).ofGraph hmem
    have hnew : (new delays).KeepsLast none := absurd rfl
    have hlast := keepsLast_run hnew t inputs hset
    rwa [Option.or_none] at hlast
  · obtain ⟨-, -, hnone⟩ := (course t _ first).ofGraph hfirst
    obtain ⟨-, hset, -⟩ := (course t _ second).ofGraph hsecond
    by_contra hall
    push Not at hall
    simp only [run_append, run] at hset hall
    exact hset (debounce_none_run hnone t hall)

end Controller

end AgentScript.Editing
