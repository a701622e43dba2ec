import AgentScript.Editing.Turns
import AgentScript.Proofs.Editing.Resting

/-!
# How a user sleeps

Two things hold of every session and of every user, whatever comes first where the order is open.

Nothing goes on for ever (`Scene.wellFounded_step`): the moves of a session use up its work, time
that goes by uses up the sleep of the user, and every other step uses up a turn.

And it makes no difference whether the user sleeps once or several times in a row for as long in
total (`Session.ends_parts`).  The user wakes up in between and falls asleep again, and the session
does not see it.  `Parted` relates the turns of two such users; whatever can happen to one of them
can happen to the other (`Parted.merge_step`, `Parted.part_step`), so that in the end the same
sessions are possible.
-/

namespace AgentScript.Editing

open Session (Rests)

variable {t : Converter} {manner : Manner} {s s' : Session} {a b : List Turn}

/-! ## An end to everything -/

/-- The time that the user sleeps in some turns, and one for each of them. -/
def Turn.length : List Turn → Nat
  | [] => 0
  | .edit _ :: rest => length rest + 1
  | .sleep ms :: rest => ms + length rest + 1

lemma Session.IsDue.isInner {move : Move} (h : s.IsDue move) : move.isInner = true := by
  cases move with
  | handle | desert | fire | wake | finish => rfl
  | send | release | unlisten | wait => cases h

/-- A step takes away from the turns, or else from the work of the session. -/
lemma Scene.Step.decreases {next scene : Scene} (h : Scene.Step t manner scene next) :
    Prod.Lex (· < ·) (· < ·) (Turn.length next.turns, next.session.work)
      (Turn.length scene.turns, scene.session.work) := by
  cases h with
  | move step due =>
    have hwork := step.passage.work_le
    rw [due.isInner, sent?_eq_none due.isInner] at hwork
    exact .right _ hwork
  | edit => exact .left _ _ (Nat.lt_succ_self _)
  | wait pos within =>
    refine .left _ _ ?_
    simp only [Turn.length]
    omega
  | awake => exact .left _ _ (by simp [Turn.length])

/-- Nothing goes on for ever. -/
theorem Scene.wellFounded_step (t : Converter) (manner : Manner) :
    WellFounded fun next scene => Scene.Step t manner scene next :=
  Subrelation.wf (fun h => Scene.Step.decreases h)
    (InvImage.wf (fun scene : Scene => (Turn.length scene.turns, scene.session.work))
      (Prod.lex Nat.lt_wfRel Nat.lt_wfRel).wf)

/-! ## Sleeping in parts -/

/-- The first turns are like the others, but that one sleep may be taken in two parts. -/
inductive Parted : List Turn → List Turn → Prop where
  | same (turns : List Turn) : Parted turns turns
  | here (first second : Nat) (turns : List Turn) :
      Parted (.sleep first :: .sleep second :: turns) (.sleep (first + second) :: turns)
  | later (turn : Turn) {a b : List Turn} (rest : Parted a b) : Parted (turn :: a) (turn :: b)

lemma Parted.append_left (h : Parted a b) (front : List Turn) :
    Parted (front ++ a) (front ++ b) := by
  induction front with
  | nil => exact h
  | cons turn front ih => exact .later turn ih

lemma Parted.nil_iff (h : Parted a b) : a = [] ↔ b = [] := by
  cases h with
  | same => rfl
  | here => simp
  | later => simp

/-- What happens first to a user who sleeps in two parts happens to one who sleeps once. -/
lemma Parted.merge_step (h : Parted a b) {a' : List Turn}
    (hstep : Scene.Step t manner ⟨s, a⟩ ⟨s', a'⟩) :
    ∃ b', Parted a' b' ∧ Scene.Steps t manner ⟨s, b⟩ ⟨s', b'⟩ := by
  cases h with
  | same => exact ⟨a', .same a', .single hstep⟩
  | here first second turns =>
    cases hstep with
    | move step due => exact ⟨_, .here first second turns, .single (.move step due)⟩
    | @wait _ _ ms _ _ pos within calm ahead step =>
      have hleft : first + second - ms = first - ms + second := by omega
      refine ⟨_, .here (first - ms) second turns, .single ?_⟩
      rw [← hleft]
      exact .wait pos (within.trans (Nat.le_add_right _ _)) calm ahead step
    | awake =>
      rw [Nat.zero_add]
      exact ⟨_, .same _, .refl⟩
  | later turn rest =>
    cases hstep with
    | move step due => exact ⟨_, .later turn rest, .single (.move step due)⟩
    | edit calm step => exact ⟨_, rest, .single (.edit calm step)⟩
    | wait pos within calm ahead step =>
      exact ⟨_, .later _ rest, .single (.wait pos within calm ahead step)⟩
    | awake => exact ⟨_, rest, .single .awake⟩

/-- A session that rests until a point in time rests at any time before. -/
lemma Session.Rests.later (h : s.Rests t) {ms : Nat}
    (ahead : ∀ task ∈ s.tasks, s.now + ms < task.deadline) :
    Rests t { s with now := s.now + ms } := by
  intro move s' step due
  cases step with
  | send | release | unlisten | wait => cases due
  | handle running first => exact h _ _ (.handle running first) trivial
  | desert running empty unheld => exact h _ _ (.desert running empty unheld) trivial
  | fire running first => exact h _ _ (.fire running first) trivial
  | @wake task asleep => exact absurd due (Nat.not_le.2 (ahead task asleep))
  | finish stopped unended => exact h _ _ (.finish stopped unended) trivial

/-- What happens first to a user who sleeps once happens to one who sleeps in two parts.  Where time
goes by beyond the first part, the latter wakes up in between. -/
lemma Parted.part_step (h : Parted a b) {b' : List Turn}
    (hstep : Scene.Step t manner ⟨s, b⟩ ⟨s', b'⟩) :
    ∃ a', Parted a' b' ∧ Scene.Steps t manner ⟨s, a⟩ ⟨s', a'⟩ := by
  cases h with
  | same => exact ⟨b', .same b', .single hstep⟩
  | here first second turns =>
    generalize hwhole : first + second = whole at hstep
    cases hstep with
    | move step due =>
      rw [← hwhole]
      exact ⟨_, .here first second turns, .single (.move step due)⟩
    | @wait _ _ ms _ _ pos within calm ahead step =>
      subst hwhole
      cases step
      obtain hbeyond | hfirst := Nat.lt_or_ge first ms
      · have hleft : first + second - ms = second - (ms - first) := by omega
        have htime : s.now + first + (ms - first) = s.now + ms := by omega
        have hbefore (task : Task) (hmem : task ∈ s.tasks) : s.now + first < task.deadline :=
          (Nat.add_lt_add_left hbeyond _).trans_le (ahead task hmem)
        have hrest : Scene.Steps t manner
            ⟨{ s with now := s.now + first }, .sleep second :: turns⟩
            ⟨{ s with now := s.now + ms }, .sleep (second - (ms - first)) :: turns⟩ := by
          refine .single ?_
          rw [← htime]
          refine .wait (Nat.sub_pos_of_lt hbeyond) (by omega) (calm.later hbefore) ?_ .wait
          rw [htime]
          exact ahead
        rw [hleft]
        refine ⟨_, .same _, ?_⟩
        obtain rfl | hpos := Nat.eq_zero_or_pos first
        · exact .head .awake hrest
        · refine .head (.wait hpos (Nat.le_refl _) calm (fun task hmem => (hbefore task hmem).le)
            .wait) ?_
          rw [Nat.sub_self]
          exact .head .awake hrest
      · have hleft : first + second - ms = first - ms + second := by omega
        rw [hleft]
        exact ⟨_, .here (first - ms) second turns, .single (.wait pos hfirst calm ahead .wait)⟩
    | awake =>
      obtain ⟨rfl, rfl⟩ := Nat.add_eq_zero_iff.1 hwhole
      exact ⟨_, .same _, .head .awake (.single .awake)⟩
  | later turn rest =>
    cases hstep with
    | move step due => exact ⟨_, .later turn rest, .single (.move step due)⟩
    | edit calm step => exact ⟨_, rest, .single (.edit calm step)⟩
    | wait pos within calm ahead step =>
      exact ⟨_, .later _ rest, .single (.wait pos within calm ahead step)⟩
    | awake => exact ⟨_, rest, .single .awake⟩

/-- What is matched step by step is matched altogether. -/
lemma Scene.Steps.matched {R : List Turn → List Turn → Prop}
    (hstep : ∀ {s s' : Session} {a a' b : List Turn}, R a b →
      Scene.Step t manner ⟨s, a⟩ ⟨s', a'⟩ →
        ∃ b', R a' b' ∧ Scene.Steps t manner ⟨s, b⟩ ⟨s', b'⟩)
    (hrelated : R a b) {a' : List Turn} (h : Scene.Steps t manner ⟨s, a⟩ ⟨s', a'⟩) :
    ∃ b', R a' b' ∧ Scene.Steps t manner ⟨s, b⟩ ⟨s', b'⟩ := by
  generalize hlast : (⟨s', a'⟩ : Scene) = last at h
  induction h generalizing s' a' with
  | refl =>
    cases hlast
    exact ⟨b, hrelated, .refl⟩
  | tail before last ih =>
    subst hlast
    obtain ⟨b', hbetween, hbefore⟩ := ih rfl
    obtain ⟨b'', hafter, hlast⟩ := hstep hbetween last
    exact ⟨b'', hafter, hbefore.trans hlast⟩

namespace Session

lemma ends_parted (h : Parted a b) : s.Ends t manner a s' ↔ s.Ends t manner b s' := by
  constructor
  · rintro ⟨hsteps, hrests⟩
    obtain ⟨b', hparted, hsteps⟩ := hsteps.matched (fun h => h.merge_step) h
    rw [hparted.nil_iff.1 rfl] at hsteps
    exact ⟨hsteps, hrests⟩
  · rintro ⟨hsteps, hrests⟩
    obtain ⟨a', hparted, hsteps⟩ :=
      hsteps.matched (R := fun b a => Parted a b) (fun h => h.part_step) h
    rw [hparted.nil_iff.2 rfl] at hsteps
    exact ⟨hsteps, hrests⟩

/-- Sleeping in several parts comes to the same ends as sleeping once for as long. -/
lemma ends_parts (t : Converter) (manner : Manner) (s s' : Session) (front back : List Turn)
    {parts : List Nat} (hparts : parts ≠ []) :
    s.Ends t manner (front ++ parts.map .sleep ++ back) s' ↔
      s.Ends t manner (front ++ .sleep parts.sum :: back) s' := by
  induction parts generalizing front with
  | nil => exact absurd rfl hparts
  | cons first parts ih =>
    cases parts with
    | nil =>
      rw [List.map_singleton, List.sum_singleton, List.append_assoc]
      rfl
    | cons second parts =>
      have hlater := ih (front ++ [.sleep first]) (List.cons_ne_nil _ _)
      simp only [List.append_assoc, List.singleton_append] at hlater
      simp only [List.map_cons, List.append_assoc, List.cons_append, List.sum_cons] at hlater ⊢
      rw [hlater]
      exact ends_parted ((Parted.here first _ back).append_left front)

end Session

end AgentScript.Editing
