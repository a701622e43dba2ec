import AgentScript.Proofs.Editing.Loops

/-!
# A view that follows the updates holds the document

A controller keeps a document of its own, and the views never see it.  What they see are the changes
that are accepted, since those are made in a view, and the updates that are shown.  `notices` lists
both, in the order in which they come, and `View.after` says what becomes of the sides of a document
at each.

Two things could set the views and the document apart.  A graph that is accepted belongs to the
document long before anything is carried over; and a script that is equivalent to the one at hand is
not shown, and must not replace it in the document either.  `Course.view` goes through the courses of
a step and finds that the document changes with the notices, and with nothing else.
-/

namespace AgentScript.Editing

def Update.revision : Update → Revision
  | .graph revision _ _ => revision
  | .text revision _ => revision

/-- What an update of the graph says about the script. -/
def Update.diagnostics? : Update → Option (List Diagnostic)
  | .graph _ _ diagnostics => some diagnostics
  | .text _ _ => none

/-- What the views get to see. -/
inductive Notice where
  /-- A change that was made in a view, and accepted. -/
  | made (change : Change)
  /-- An update that is shown. -/
  | shown (update : Update)
  deriving Repr, Inhabited

def Notice.change? : Notice → Option Change
  | .made change => some change
  | .shown _ => none

def Notice.update? : Notice → Option Update
  | .made _ => none
  | .shown update => some update

/-- The sides of a document, and what was found in its script. -/
structure View where
  text : String := ""
  graph : Graph := {}
  diagnostics : List Diagnostic := []
  deriving Repr, Inhabited

def Document.view (d : Document) : View := ⟨d.text, d.graph, d.diagnostics⟩

namespace View

/-- New content takes the place of the old.  What was found in the script is told with a graph. -/
def after (v : View) : Notice → View
  | .made (.text text) => { v with text }
  | .made (.graph graph) => { v with graph }
  | .shown (.text _ text) => { v with text }
  | .shown (.graph _ graph diagnostics) => { v with graph, diagnostics }

lemma diagnostics_foldl (v : View) (notices : List Notice) :
    (notices.foldl after v).diagnostics =
      (((notices.filterMap Notice.update?).filterMap Update.diagnostics?).getLast?).getD
        v.diagnostics := by
  induction notices using List.reverseRecOn with
  | nil => rfl
  | append_singleton notices notice ih =>
    rw [List.foldl_append, filterMap_concat, List.filterMap_append, List.getLast?_append]
    cases notice with
    | made change =>
      cases change with
      | text => simpa [after, Notice.update?] using ih
      | graph => simpa [after, Notice.update?] using ih
    | shown update =>
      cases update with
      | graph => simp [after, Notice.update?, Update.diagnostics?]
      | text => simpa [after, Notice.update?, Update.diagnostics?] using ih

end View

namespace Controller

variable {t : Converter} {c : Controller} {input : Input} {o : Outcome}

/-- What the views get to see of a step with the given outcome. -/
def noticesOf (c : Controller) (input : Input) (o : Outcome) : List Notice :=
  (c.acceptedOf input).toList.map .made ++ (updates o.effects).map .shown

/-- What the views get to see of a run. -/
def notices (t : Converter) (c : Controller) : List Input → List Notice
  | [] => []
  | input :: rest => c.noticesOf input (c.step t input) ++ notices t (c.step t input).controller rest

lemma change_notices (t : Converter) (c : Controller) (inputs : List Input) :
    (c.notices t inputs).filterMap Notice.change? = c.accepted t inputs := by
  induction inputs generalizing c with
  | nil => rfl
  | cons input rest ih =>
    simp [notices, noticesOf, accepted, ih, Function.comp_def, Notice.change?]

lemma update_notices (t : Converter) (c : Controller) (inputs : List Input) :
    (c.notices t inputs).filterMap Notice.update? = updates (c.run t inputs).effects := by
  induction inputs generalizing c with
  | nil => rfl
  | cons input rest ih =>
    simp [notices, noticesOf, run, ih, Function.comp_def, Notice.update?]

/-! ## Steps -/

/-- A graph that is carried over either leaves the script as it is, and nothing is shown, or the new
script is shown with the next revision. -/
lemma carryGraph_cases (t : Converter) (c : Controller) :
    (∃ phase, c.carryGraph t =
      { c with document := { c.document with phase } }.beginGrace []
        [.ofGraph c.document.graph]) ∨
    ∃ phase text, c.carryGraph t =
      { c with
        document :=
          { c.document with phase, text, revision := c.document.revision.next } }.beginGrace
        [.applyText c.document.revision.next text] [.ofGraph c.document.graph] := by
  unfold carryGraph
  dsimp only
  split
  next => exact .inl ⟨_, rfl⟩
  next => exact .inr ⟨_, _, rfl⟩

/-- The document changes with what the views get to see, and with nothing else. -/
lemma Course.view (h : Course t c input o) :
    o.controller.document.view = (c.noticesOf input o).foldl View.after c.document.view := by
  unfold noticesOf
  cases h with
  | dropped hrefused =>
    rw [hrefused]
    rfl
  | text haccepts =>
    rw [acceptedOf, if_pos haccepts, carryText, updates_beginGrace, updates_append, updates_stop]
    rfl
  | graph haccepts =>
    rw [acceptedOf, if_pos haccepts, keepGraph, updates_append, updates_stop]
    rfl
  | debounce =>
    obtain ⟨phase, heq⟩ | ⟨phase, text, heq⟩ := carryGraph_cases t c.spendDebounce
    · rw [heq, updates_beginGrace]
      rfl
    · rw [heq, updates_beginGrace]
      rfl
  | grace => rfl
  | close =>
    rw [updates_append, updates_stop, updates_stop]
    rfl

/-- Every update has the revision that comes next, and a document has that of the last. -/
lemma Course.revisions (h : Course t c input o) :
    (updates o.effects).map Update.revision =
        (List.range' (c.document.revision.number + 1) (updates o.effects).length).map .mk ∧
      o.controller.document.revision.number =
        c.document.revision.number + (updates o.effects).length := by
  cases h with
  | dropped | grace => exact ⟨rfl, rfl⟩
  | text =>
    rw [carryText, updates_beginGrace, updates_append, updates_stop]
    exact ⟨rfl, rfl⟩
  | graph =>
    rw [keepGraph, updates_append, updates_stop]
    exact ⟨rfl, rfl⟩
  | debounce =>
    obtain ⟨phase, heq⟩ | ⟨phase, text, heq⟩ := carryGraph_cases t c.spendDebounce
    · rw [heq, updates_beginGrace]
      exact ⟨rfl, rfl⟩
    · rw [heq, updates_beginGrace]
      exact ⟨rfl, rfl⟩
  | close =>
    rw [updates_append, updates_stop, updates_stop]
    exact ⟨rfl, rfl⟩

/-! ## Runs -/

lemma view_run (t : Converter) (c : Controller) (inputs : List Input) :
    (c.run t inputs).controller.document.view =
      (c.notices t inputs).foldl View.after c.document.view := by
  induction inputs generalizing c with
  | nil => rfl
  | cons input rest ih =>
    rw [notices, List.foldl_append, run, ih, (course t c input).view]

lemma revisions_run (t : Converter) (c : Controller) (inputs : List Input) :
    (updates (c.run t inputs).effects).map Update.revision =
        (List.range' (c.document.revision.number + 1)
          (updates (c.run t inputs).effects).length).map .mk ∧
      (c.run t inputs).controller.document.revision.number =
        c.document.revision.number + (updates (c.run t inputs).effects).length := by
  induction inputs generalizing c with
  | nil => exact ⟨rfl, rfl⟩
  | cons input rest ih =>
    obtain ⟨hfirst, hnext⟩ := (course t c input).revisions
    obtain ⟨hrest, hlast⟩ := ih (c.step t input).controller
    rw [run, updates_append, List.length_append, List.map_append, hfirst, hrest, hlast, hnext]
    refine ⟨?_, Nat.add_assoc ..⟩
    rw [← List.map_append, ← List.range'_append_1]
    congr 3
    exact Nat.add_right_comm ..

/-- **A view that follows the updates holds the document.**  Take any run of a new controller.

* The updates carry the revisions 1, 2 and so on, and the document has that of the last.
* The notices are the accepted changes and the updates, in the order in which they come.
* A view that begins empty and takes over what it gets to see has the two sides of the document,
  and its diagnostics.
* These are the diagnostics of the last graph that was shown. -/
theorem view_holds_document (t : Converter) (delays : Delays) (inputs : List Input) :
    let o := (new delays).run t inputs
    let d := o.controller.document
    let notices := (new delays).notices t inputs
    (updates o.effects).map Update.revision =
      (List.range (updates o.effects).length).map (fun k => ⟨k + 1⟩) ∧
    d.revision = ⟨(updates o.effects).length⟩ ∧
    notices.filterMap Notice.change? = (new delays).accepted t inputs ∧
    notices.filterMap Notice.update? = updates o.effects ∧
    d.view = notices.foldl View.after {} ∧
    d.diagnostics = ((updates o.effects).filterMap Update.diagnostics?).getLast?.getD [] := by
  intro o d notices
  obtain ⟨hnumbers, hlast⟩ := revisions_run t (new delays) inputs
  have hupdates : notices.filterMap Notice.update? = updates o.effects :=
    update_notices t (new delays) inputs
  have hview : d.view = notices.foldl View.after {} := view_run t (new delays) inputs
  refine ⟨?_, ?_, change_notices t (new delays) inputs, hupdates, hview, ?_⟩
  · rw [hnumbers, List.range'_eq_map_range, List.map_map]
    refine List.map_congr_left fun k _ => ?_
    exact congrArg Revision.mk (Nat.add_comm 1 k)
  · exact congrArg Revision.mk (hlast.trans (Nat.zero_add _))
  · rw [← hupdates]
    exact (congrArg View.diagnostics hview).trans (View.diagnostics_foldl {} notices)

end Controller

end AgentScript.Editing
