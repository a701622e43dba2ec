import AgentScript.Proofs.Editing.Awaiting
import AgentScript.Proofs.Editing.Scenes

/-!
# A burst of changes is converted once

A graph that the user changes is not converted at once.  It is converted when nothing was changed
for as long as the debounce timer takes, and if something is changed sooner than that, it never is.
If something is changed just then, both can happen: the command and the timer are there at the same
time, and a session may handle either first.

What is converted was within the outlook at the beginning, in every order (`Awaits.outlook`); and
whatever is within the outlook is converted in some order (`Awaits.exists_ends_of_outlook`).
-/

namespace AgentScript.Editing.Session

open Turn (Converts)

variable {t : Converter} {manner : Manner} {s s' : Session} {delay : Nat} {p : Prospect}
  {turns : List Turn} {graphs : List Graph}

namespace Awaits

/-! ## Every order -/

/-- A session awaits something as long as its user takes turns. -/
lemma steps (h : s.Awaits manner delay p) {scene : Scene}
    (hsteps : Scene.Steps t manner ⟨s, turns⟩ scene) :
    ∃ p', scene.session.Awaits manner delay p' := by
  induction hsteps with
  | refl => exact ⟨p, h⟩
  | tail _ hlast ih =>
    obtain ⟨p', hawaits⟩ := ih
    obtain ⟨-, p'', hnext, -⟩ := hawaits.step hlast
    exact ⟨p'', hnext⟩

/-- What is converted altogether was within the outlook at the beginning. -/
lemma outlook (h : s.Awaits manner delay p) (hends : s.Ends t manner turns s') :
    ∃ graphs, Outlook manner delay p turns graphs ∧
      s'.conversions = s.conversions ++ graphs.map .ofGraph := by
  obtain ⟨hsteps, hrests⟩ := hends
  generalize hfirst : (⟨s, turns⟩ : Scene) = scene at hsteps
  induction hsteps using Relation.ReflTransGen.head_induction_on generalizing s turns p with
  | refl =>
    cases hfirst
    obtain ⟨hqueued, -, -, hleft⟩ := h.of_rests hrests
    exact ⟨[], (Outlook.nil_iff hleft hqueued).2 rfl, (List.append_nil _).symm⟩
  | @head _ next hstep _ ih =>
    subst hfirst
    obtain ⟨converted, p', hawaits, hfirst, houtlook⟩ := h.step hstep
    obtain ⟨graphs, hwithin, hlater⟩ := ih hawaits rfl
    refine ⟨converted ++ graphs, houtlook graphs hwithin, ?_⟩
    rw [hlater, hfirst, List.append_assoc, List.map_append]

/-! ## Some order -/

/-- The user can send a change. -/
lemma send_step (h : s.Awaits manner delay p) (t : Converter) (graph : Graph) :
    Step t s (.send (.edit graph)) { s with commands := s.commands ++ [.edit graph] } :=
  .send h.held (if_neg (Bool.not_eq_true _ ▸ h.unended))

/-- As long as something is left to do, something can be done. -/
lemma exists_step (h : s.Awaits manner delay p) (t : Converter)
    (hleft : ¬ (turns = [] ∧ s.Rests t)) : ∃ scene, Scene.Step t manner ⟨s, turns⟩ scene := by
  by_cases hrests : s.Rests t
  · cases turns with
    | nil => exact absurd ⟨rfl, hrests⟩ hleft
    | cons turn rest =>
      cases turn with
      | edit graph => exact ⟨_, .edit (fun _ => hrests) (h.send_step t graph)⟩
      | sleep ms =>
        cases ms with
        | zero => exact ⟨_, .awake⟩
        | succ ms =>
          obtain ⟨-, -, hahead, -⟩ := h.of_rests hrests
          exact ⟨_, .wait Nat.one_pos (Nat.le_add_left 1 ms) hrests hahead .wait⟩
  · unfold Rests at hrests
    push Not at hrests
    obtain ⟨move, s', hstep, hdue⟩ := hrests
    exact ⟨_, .move hstep hdue⟩

/-- The session can make all the moves whose time has come, while the user does nothing. -/
lemma rest (h : s.Awaits manner delay p) (hqueued : p.queued = []) (t : Converter)
    (turns : List Turn) :
    ∃ s', Scene.Steps t manner ⟨s, turns⟩ ⟨s', turns⟩ ∧ s'.Rests t ∧
      s'.Awaits manner delay p.settled ∧
      s'.conversions = s.conversions ++ p.due.map .ofGraph := by
  induction hwork : s.work using Nat.strong_induction_on generalizing s p with
  | _ work ih =>
    subst hwork
    by_cases hrests : s.Rests t
    · obtain ⟨-, -, -, hleft⟩ := h.of_rests hrests
      rw [Prospect.settled, if_neg hleft, Prospect.due, if_neg hleft]
      exact ⟨s, .refl, hrests, h, (List.append_nil _).symm⟩
    · unfold Rests at hrests
      push Not at hrests
      obtain ⟨move, next, hstep, hdue⟩ := hrests
      obtain ⟨converted, p', hmove, hawaits, hconversions⟩ := h.move hstep hdue
      have hwork := hstep.passage.work_le
      rw [hdue.isInner, sent?_eq_none hdue.isInner] at hwork
      have hlater (hnone : p'.queued = []) := ih next.work hwork hawaits hnone rfl
      have hcome {s' : Session} (hsteps : Scene.Steps t manner ⟨next, turns⟩ ⟨s', turns⟩) :
          Scene.Steps t manner ⟨s, turns⟩ ⟨s', turns⟩ := .head (.move hstep hdue) hsteps
      cases hmove with
      | stay =>
        obtain ⟨s', hsteps, hrests, hsettled, hlater⟩ := hlater hqueued
        refine ⟨s', hcome hsteps, hrests, hsettled, ?_⟩
        rw [hlater, hconversions, List.map_nil, List.append_nil]
      | take => cases hqueued
      | convert =>
        obtain ⟨s', hsteps, hrests, hsettled, hlater⟩ := hlater hqueued
        refine ⟨s', hcome hsteps, hrests, hsettled, ?_⟩
        rw [hlater, hconversions]
        exact List.append_nil _

/-- While the user sleeps, the session can convert what is due as soon as it is. -/
lemma sleep (h : s.Awaits manner delay p) (hqueued : p.queued = []) (t : Converter) {ms : Nat}
    (houtlook : Outlook manner delay p (.sleep ms :: turns) graphs) :
    ∃ s' p' converted later, Scene.Steps t manner ⟨s, .sleep ms :: turns⟩ ⟨s', turns⟩ ∧
      s'.Awaits manner delay p' ∧ p'.queued = [] ∧
      s'.conversions = s.conversions ++ converted.map .ofGraph ∧ graphs = converted ++ later ∧
      Outlook manner delay p' turns later := by
  induction ms generalizing s p graphs with
  | zero =>
    exact ⟨s, p, [], graphs, .single .awake, h, hqueued, (List.append_nil _).symm, rfl,
      Outlook.awake_iff.2 houtlook⟩
  | succ ms ih =>
    obtain ⟨later, rfl, hlater⟩ | ⟨-, hpause, -⟩ := houtlook.due_or_overtaken
    · obtain ⟨rested, hrest, hrests, hawaits, hconversions⟩ :=
        h.rest hqueued t (.sleep (ms + 1) :: turns)
      have hsettled : p.settled.queued = [] := p.settled_queued.trans hqueued
      have hahead : ∀ task ∈ rested.tasks, rested.now + 1 ≤ task.deadline :=
        (hawaits.of_rests hrests).2.2.1
      obtain ⟨hwaits, hleft⟩ := hawaits.wait hrests hahead
      obtain ⟨s', p', converted, later', hsteps, hend, hnone, hmore, rfl, hwithin⟩ :=
        ih hwaits hsettled ((Outlook.wait_iff hsettled (Nat.le_add_left 1 ms) hleft).2 hlater)
      refine ⟨s', p', p.due ++ converted, later', ?_, hend, hnone, ?_,
        (List.append_assoc _ _ _).symm, hwithin⟩
      · exact hrest.trans
          (.head (.wait Nat.one_pos (Nat.le_add_left 1 ms) hrests hahead .wait) hsteps)
      · rw [hmore, List.map_append, ← List.append_assoc, ← hconversions]
    · rw [Prospect.ahead_of_queued hqueued, Turn.pause] at hpause
      omega

/-- The session can handle a change as soon as the user has sent it. -/
lemma change (h : s.Awaits manner delay p) (hqueued : p.queued = []) (t : Converter)
    (hcalm : manner = .patient → s.Rests t) (next : Graph) (turns : List Turn) :
    ∃ s', Scene.Steps t manner ⟨s, .edit next :: turns⟩ ⟨s', turns⟩ ∧
      s'.Awaits manner delay ⟨next, some delay, []⟩ ∧ s'.conversions = s.conversions := by
  obtain ⟨graph, left, _⟩ := p
  cases hqueued
  have hcommands : s.commands = [] := h.commands_eq
  have hsend := h.send_step t next
  have hsent := h.send hcalm next
  rw [hcommands] at hsend hsent
  have hhandle : Step t { s with commands := [.edit next] } (.handle (.edit next)) _ :=
    .handle h.running rfl
  obtain ⟨hawaits, hconversions⟩ := hsent.take hhandle.passage
  exact ⟨_, .head (.edit hcalm hsend) (.single (.move hhandle trivial)), hawaits, hconversions⟩

/-- When the user changes the graph, the session can convert what is due before, or not at all. -/
lemma edit (h : s.Awaits manner delay p) (hqueued : p.queued = []) (t : Converter) {next : Graph}
    (houtlook : Outlook manner delay p (.edit next :: turns) graphs) :
    ∃ s' p' converted later, Scene.Steps t manner ⟨s, .edit next :: turns⟩ ⟨s', turns⟩ ∧
      s'.Awaits manner delay p' ∧ p'.queued = [] ∧
      s'.conversions = s.conversions ++ converted.map .ofGraph ∧ graphs = converted ++ later ∧
      Outlook manner delay p' turns later := by
  obtain ⟨later, rfl, hlater⟩ | ⟨hfree, -, -, hothers⟩ := houtlook.due_or_overtaken
  · obtain ⟨rested, hrest, hrests, hawaits, hconversions⟩ :=
      h.rest hqueued t (.edit next :: turns)
    have hsettled : p.settled.queued = [] := p.settled_queued.trans hqueued
    have hahead := Prospect.ahead_of_queued hsettled (.edit next :: turns)
    obtain ⟨-, -, -, hleft⟩ := hawaits.of_rests hrests
    obtain ⟨s', hsteps, hnext, hsame⟩ := hawaits.change hsettled t (fun _ => hrests) next turns
    exact ⟨s', _, p.due, later, hrest.trans hsteps, hnext, rfl, hsame.trans hconversions, rfl,
      Outlook.edit_iff.2 ((Outlook.replaced_iff hleft hahead).1 hlater)⟩
  · have hcalm : manner = .patient → s.Rests t := by
      rintro rfl
      cases hfree
    rw [Prospect.ahead_of_queued hqueued] at hothers
    obtain ⟨s', hsteps, hnext, hsame⟩ := h.change hqueued t hcalm next turns
    exact ⟨s', _, [], graphs, hsteps, hnext, rfl, hsame.trans (List.append_nil _).symm, rfl,
      Outlook.edit_iff.2 hothers⟩

/-- Whatever is within the outlook can be converted. -/
lemma exists_ends_of_outlook (h : s.Awaits manner delay p) (hqueued : p.queued = [])
    (t : Converter) (houtlook : Outlook manner delay p turns graphs) :
    ∃ s', s.Ends t manner turns s' ∧ s'.conversions = s.conversions ++ graphs.map .ofGraph := by
  induction turns generalizing s p graphs with
  | nil =>
    obtain ⟨later, rfl, hlater⟩ | ⟨-, -, ⟨next, hnext⟩, -⟩ := houtlook.due_or_overtaken
    · obtain ⟨s', hsteps, hrests, hawaits, hconversions⟩ := h.rest hqueued t []
      obtain ⟨hnone, -, -, hleft⟩ := hawaits.of_rests hrests
      rw [(Outlook.nil_iff hleft hnone).1 hlater, List.append_nil]
      exact ⟨s', ⟨hsteps, hrests⟩, hconversions⟩
    · rw [Prospect.ahead_of_queued hqueued] at hnext
      cases hnext
  | cons turn rest ih =>
    have hturn : ∃ s' p' converted later, Scene.Steps t manner ⟨s, turn :: rest⟩ ⟨s', rest⟩ ∧
        s'.Awaits manner delay p' ∧ p'.queued = [] ∧
        s'.conversions = s.conversions ++ converted.map .ofGraph ∧ graphs = converted ++ later ∧
        Outlook manner delay p' rest later := by
      cases turn with
      | edit next => exact h.edit hqueued t houtlook
      | sleep ms => exact h.sleep hqueued t houtlook
    obtain ⟨next, p', converted, later, hsteps, hawaits, hnone, hconversions, rfl, hlater⟩ := hturn
    obtain ⟨s', ⟨hmore, hrests⟩, hend⟩ := ih hawaits hnone hlater
    refine ⟨s', ⟨hsteps.trans hmore, hrests⟩, ?_⟩
    rw [hend, hconversions, List.map_append, List.append_assoc]

end Awaits

/-! ## What is converted -/

/-- **Debouncing in every order.**  Take a session whose controller is open, and a user with any
turns.

* What is converted in the end are graphs to which the user changed it, each of them once or not at
  all, and in their order.  One that is followed by a pause of more than the debounce delay is
  converted, and so is the last one if time enough is left until the end.  One that is followed by a
  shorter pause is not.  If the pause before another change is just as long, it may be converted or
  not.
* Whatever is left open in this way can happen.
* If the user is patient, those graphs are converted that are not changed again for as long as the
  debounce delay, and no others.
* Nothing goes on for ever, and nothing stops before all turns are taken and the session rests.
* Whether the user sleeps once or several times in a row for as long in total makes no difference to
  the sessions that are possible in the end, their conversions, their updates and their documents
  among the rest. -/
theorem converts_in_every_order (t : Converter) {c : Controller} (hopen : c.closed = false) :
    (∀ manner turns s, (spawn c).Ends t manner turns s →
      ∃ graphs, Converts manner c.delays.debounce turns graphs ∧
        s.conversions = graphs.map .ofGraph) ∧
    (∀ manner turns graphs, Converts manner c.delays.debounce turns graphs →
      ∃ s, (spawn c).Ends t manner turns s ∧ s.conversions = graphs.map .ofGraph) ∧
    (∀ turns s, (spawn c).Ends t .patient turns s →
      s.conversions = (Turn.lasting c.delays.debounce turns).map .ofGraph) ∧
    (∀ manner, WellFounded (fun next scene => Scene.Step t manner scene next) ∧
      ∀ turns scene, Scene.Steps t manner ⟨spawn c, turns⟩ scene →
        (∀ next, ¬ Scene.Step t manner scene next) →
          scene.turns = [] ∧ scene.session.Rests t) ∧
    ∀ manner front parts back s, parts ≠ [] →
      ((spawn c).Ends t manner (front ++ parts.map .sleep ++ back) s ↔
        (spawn c).Ends t manner (front ++ .sleep parts.sum :: back) s) := by
  have hawaits (manner : Manner) := awaits_spawn manner hopen
  have hsound (manner : Manner) (turns : List Turn) (s : Session)
      (hends : (spawn c).Ends t manner turns s) :
      ∃ graphs, Converts manner c.delays.debounce turns graphs ∧
        s.conversions = graphs.map .ofGraph := by
    obtain ⟨graphs, houtlook, hconversions⟩ := (hawaits manner).outlook hends
    obtain ⟨-, hconverts⟩ | ⟨hset, -, -⟩ := houtlook
    · exact ⟨graphs, hconverts, hconversions⟩
    · cases hset
  refine ⟨hsound, fun manner turns graphs hconverts => ?_, fun turns s hends => ?_,
    fun manner => ⟨Scene.wellFounded_step t manner, fun turns scene hsteps hstuck => ?_⟩,
    fun manner front parts back s hparts => ends_parts t manner _ s front back hparts⟩
  · exact (hawaits manner).exists_ends_of_outlook rfl t (.unset rfl hconverts)
  · obtain ⟨graphs, hconverts, hconversions⟩ := hsound .patient turns s hends
    rw [hconversions, hconverts.eq_lasting]
  · obtain ⟨p, hscene⟩ := (hawaits manner).steps hsteps
    by_contra hleft
    obtain ⟨next, hstep⟩ := hscene.exists_step t hleft
    exact hstuck next hstep

/-- Two changes, the second of them just when the first one is due to be converted. -/
def tiedTurns : List Turn := [.edit Controller.sampleGraph, .sleep 1, .sleep 2, .edit {}, .sleep 3]

lemma overtaken_tiedTurns : Converts .free 3 tiedTurns [({} : Graph)] := by
  have hfate : Turn.Fate .free 3 [.sleep 1, .sleep 2, .edit {}, .sleep 3]
      Controller.sampleGraph [] := .overtaken rfl rfl ⟨{}, by simp⟩
  exact .edit hfate (.sleep (.sleep (.edit (.converted (Nat.le_refl 3)) (.sleep .nil))))

/-- The first graph may be converted or not, unless the user is patient. -/
theorem converts_in_every_order_tiedTurns :
    let s := spawn (.new ⟨3, 3⟩)
    (Controller.new ⟨3, 3⟩).closed = false ∧
      (∃ s', s.Ends (.standard {}) .free tiedTurns s' ∧
        s'.conversions = [.ofGraph Controller.sampleGraph, .ofGraph {}]) ∧
      (∃ s', s.Ends (.standard {}) .free tiedTurns s' ∧ s'.conversions = [.ofGraph {}]) ∧
      ∀ s', s.Ends (.standard {}) .patient tiedTurns s' →
        s'.conversions = [.ofGraph Controller.sampleGraph, .ofGraph {}] := by
  have hopen : (Controller.new ⟨3, 3⟩).closed = false := rfl
  obtain ⟨-, hpossible, hpatient, -⟩ := converts_in_every_order (.standard {}) hopen
  exact ⟨hopen, hpossible .free tiedTurns _ (Turn.converts_lasting .free 3 tiedTurns),
    hpossible .free tiedTurns _ overtaken_tiedTurns, hpatient tiedTurns⟩

/-- A graph that was not changed for as long as the debounce delay need not be converted. -/
theorem overtaken_when_due :
    ∃ s, (spawn (.new ⟨3, 3⟩)).Ends (.standard {}) .free tiedTurns s ∧
      s.conversions = [.ofGraph {}] ∧
      s.conversions ≠ (Turn.lasting 3 tiedTurns).map .ofGraph := by
  have hawaits := awaits_spawn (c := .new ⟨3, 3⟩) .free rfl
  obtain ⟨s, hends, hconversions⟩ :=
    hawaits.exists_ends_of_outlook rfl (.standard {}) (.unset rfl overtaken_tiedTurns)
  refine ⟨s, hends, hconversions, fun hsame => ?_⟩
  have hlength := congrArg List.length (hconversions.symm.trans hsame)
  exact absurd hlength (by decide)

end AgentScript.Editing.Session
