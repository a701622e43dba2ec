import AgentScript.Editing.Turns

/-!
# What the pauses between changes tell

Which graphs of a user are converted can nearly be told from the pauses after the changes, without
any timer.  `Turn.Fate` says what becomes of one graph: if the pause is longer than the time until
its conversion, it is converted; if it is shorter, it is not.  If the pause is just as long and then
comes another change, the order of what happens at that time decides, unless the user is patient.
`Turn.Converts` puts the fates of all changes together.

A session in the middle of all this is summed up by a `Prospect`: the graph at hand, the time until
its conversion, and the graphs that wait in the queue.  `Outlook` says what may be converted from
there on, and no step of the session gives up more of it than it converts (`Outlook.of_move`,
`Outlook.of_send`, `Outlook.of_wait`, `Outlook.of_awake`).
-/

namespace AgentScript.Editing

variable {manner : Manner} {debounce : Nat} {graph next : Graph} {first graphs : List Graph}
  {turns : List Turn}

namespace Turn

/-- How much time goes by before the next change, or before the end. -/
def pause : List Turn → Nat
  | [] => 0
  | .edit _ :: _ => 0
  | .sleep ms :: rest => ms + pause rest

/-- The graphs that are not changed again for the given time. -/
def lasting (debounce : Nat) : List Turn → List Graph
  | [] => []
  | .edit graph :: rest =>
    if debounce ≤ pause rest then graph :: lasting debounce rest else lasting debounce rest
  | .sleep _ :: rest => lasting debounce rest

/-- What becomes of a graph that is going to be converted after some time when these turns are still
ahead: it is converted, or not. -/
inductive Fate (manner : Manner) (left : Nat) (turns : List Turn) (graph : Graph) :
    List Graph → Prop where
  /-- Nothing is changed before. -/
  | converted (lasts : left ≤ pause turns) : Fate manner left turns graph [graph]
  /-- The next change comes before, or the end does. -/
  | replaced (soon : pause turns < left) : Fate manner left turns graph []
  /-- The next change comes at the same time, and it comes first. -/
  | overtaken (free : manner = .free) (tie : pause turns = left)
      (next : ∃ next, .edit next ∈ turns) : Fate manner left turns graph []

/-- The graphs that may be converted in the end, among those to which the user changes the graph.
Each of them is converted once or not at all, and they are converted in their order. -/
inductive Converts (manner : Manner) (debounce : Nat) : List Turn → List Graph → Prop where
  | nil : Converts manner debounce [] []
  | edit {graph : Graph} {rest : List Turn} {first later : List Graph}
      (fate : Fate manner debounce rest graph first)
      (others : Converts manner debounce rest later) :
      Converts manner debounce (.edit graph :: rest) (first ++ later)
  | sleep {ms : Nat} {rest : List Turn} {graphs : List Graph}
      (others : Converts manner debounce rest graphs) :
      Converts manner debounce (.sleep ms :: rest) graphs

lemma converts_sleep_iff {ms : Nat} :
    Converts manner debounce (.sleep ms :: turns) graphs ↔ Converts manner debounce turns graphs :=
  ⟨fun | .sleep others => others, .sleep⟩

/-- It is always possible that those graphs are converted which last. -/
lemma converts_lasting (manner : Manner) (debounce : Nat) (turns : List Turn) :
    Converts manner debounce turns (lasting debounce turns) := by
  induction turns with
  | nil => exact .nil
  | cons turn rest ih =>
    cases turn with
    | sleep ms => exact .sleep ih
    | edit graph =>
      rw [lasting]
      split
      next hlasts => exact .edit (.converted hlasts) ih
      next hshort => exact .edit (.replaced (Nat.not_le.1 hshort)) ih

/-- Where the user is patient, nothing else is. -/
lemma Converts.eq_lasting (h : Converts .patient debounce turns graphs) :
    graphs = lasting debounce turns := by
  induction h with
  | nil => rfl
  | sleep _ ih => exact ih
  | edit fate _ ih =>
    rw [lasting, ← ih]
    cases fate with
    | converted lasts => exact (if_pos lasts).symm
    | replaced soon => exact (if_neg (Nat.not_le.2 soon)).symm
    | overtaken free => cases free

/-! ## Time that goes by -/

/-- What becomes of a graph stays the same when some of the time is over. -/
lemma fate_iff {left left' ms : Nat} {turns' : List Turn} (hleft : left' + ms = left)
    (hpause : pause turns' + ms = pause turns)
    (hnext : ∀ next, .edit next ∈ turns' ↔ .edit next ∈ turns) :
    Fate manner left' turns' graph first ↔ Fate manner left turns graph first := by
  constructor
  · rintro (lasts | soon | ⟨free, tie, next⟩)
    · exact .converted (by omega)
    · exact .replaced (by omega)
    · exact .overtaken free (by omega) ((exists_congr hnext).1 next)
  · rintro (lasts | soon | ⟨free, tie, next⟩)
    · exact .converted (by omega)
    · exact .replaced (by omega)
    · exact .overtaken free (by omega) ((exists_congr hnext).2 next)

lemma pause_awake (front back : List Turn) :
    pause (front ++ .sleep 0 :: back) = pause (front ++ back) := by
  induction front with
  | nil => exact Nat.zero_add _
  | cons turn rest ih =>
    cases turn with
    | edit graph => rfl
    | sleep ms => exact congrArg (ms + ·) ih

lemma fate_awake_iff {front back : List Turn} {left : Nat} :
    Fate manner left (front ++ back) graph first ↔
      Fate manner left (front ++ .sleep 0 :: back) graph first :=
  fate_iff (Nat.add_zero left) (pause_awake front back).symm (by simp)

/-- A user whose sleep is over goes on, and that changes nothing. -/
lemma converts_awake_iff {front back : List Turn} :
    Converts manner debounce (front ++ back) graphs ↔
      Converts manner debounce (front ++ .sleep 0 :: back) graphs := by
  induction front generalizing graphs with
  | nil => exact converts_sleep_iff.symm
  | cons turn rest ih =>
    constructor
    · rintro (_ | ⟨fate, others⟩ | others)
      · exact .edit (fate_awake_iff.1 fate) (ih.1 others)
      · exact .sleep (ih.1 others)
    · rintro (_ | ⟨fate, others⟩ | others)
      · exact .edit (fate_awake_iff.2 fate) (ih.2 others)
      · exact .sleep (ih.2 others)

end Turn

/-! ## Prospects -/

/-- What is still to come of the changes that have been made. -/
structure Prospect where
  /-- The graph at hand. -/
  graph : Graph
  /-- The time until its conversion, if it is going to be converted. -/
  left : Option Nat
  /-- The graphs that take its place, one after the other. -/
  queued : List Graph := []

namespace Prospect

/-- The turns that are ahead of the graph at hand. -/
def ahead (p : Prospect) (turns : List Turn) : List Turn := p.queued.map .edit ++ turns

lemma ahead_of_queued {p : Prospect} (hqueued : p.queued = []) (turns : List Turn) :
    p.ahead turns = turns := by
  rw [ahead, hqueued]
  rfl

/-- The prospect when some time has gone by. -/
def after (ms : Nat) (p : Prospect) : Prospect := { p with left := p.left.map (· - ms) }

/-- The graph at hand, if it is converted now. -/
def due (p : Prospect) : List Graph := if p.left = some 0 then [p.graph] else []

/-- The prospect when what is due has been converted. -/
def settled (p : Prospect) : Prospect := if p.left = some 0 then { p with left := none } else p

@[simp] lemma settled_queued (p : Prospect) : p.settled.queued = p.queued := by
  unfold settled
  split
  next => rfl
  next => rfl

/-- What a move of a session does to the prospect, and what it converts. -/
inductive Move (manner : Manner) (debounce : Nat) : Prospect → List Graph → Prospect → Prop where
  /-- Nothing of this is touched. -/
  | stay (p : Prospect) : Move manner debounce p [] p
  /-- The first graph in the queue takes the place of the one at hand. -/
  | take {graph next : Graph} {left : Option Nat} {queued : List Graph}
      (unhurried : manner = .patient → left ≠ some 0) :
      Move manner debounce ⟨graph, left, next :: queued⟩ [] ⟨next, some debounce, queued⟩
  /-- The graph at hand is converted. -/
  | convert (graph : Graph) (queued : List Graph) :
      Move manner debounce ⟨graph, some 0, queued⟩ [graph] ⟨graph, none, queued⟩

end Prospect

open Turn (Converts Fate pause)

/-- What may be converted from here on, with some turns still to be taken. -/
inductive Outlook (manner : Manner) (debounce : Nat) (p : Prospect) (turns : List Turn) :
    List Graph → Prop where
  | unset {graphs : List Graph} (unset : p.left = none)
      (others : Converts manner debounce (p.ahead turns) graphs) :
      Outlook manner debounce p turns graphs
  | set {left : Nat} {first later : List Graph} (set : p.left = some left)
      (fate : Fate manner left (p.ahead turns) p.graph first)
      (others : Converts manner debounce (p.ahead turns) later) :
      Outlook manner debounce p turns (first ++ later)

namespace Outlook

variable {p p' : Prospect} {rest : List Turn}

/-- The graph at hand may not be converted. -/
lemma passed {left : Nat} (set : p.left = some left)
    (fate : Fate manner left (p.ahead turns) p.graph [])
    (others : Converts manner debounce (p.ahead turns) graphs) :
    Outlook manner debounce p turns graphs := by
  rw [← List.nil_append graphs]
  exact .set set fate others

/-- When the graph at hand is new, it does not matter that it has been taken from the user. -/
lemma edit_iff {queued : List Graph} :
    Outlook manner debounce ⟨graph, some debounce, queued⟩ turns graphs ↔
      Converts manner debounce (.edit graph :: (queued.map .edit ++ turns)) graphs := by
  constructor
  · rintro (⟨⟨⟩, -⟩ | ⟨⟨⟩, fate, others⟩)
    exact .edit fate others
  · rintro (_ | ⟨fate, others⟩)
    exact .set rfl fate others

/-- The next change takes the place of a graph whose conversion is not due. -/
lemma replaced_iff (hleft : p.left ≠ some 0) (hahead : p.ahead turns = .edit next :: rest) :
    Outlook manner debounce p turns graphs ↔
      Converts manner debounce (.edit next :: rest) graphs := by
  rw [← hahead]
  constructor
  · rintro (⟨-, others⟩ | ⟨set, fate, others⟩)
    · exact others
    · cases fate with
      | converted lasts =>
        rw [hahead, pause, Nat.le_zero] at lasts
        exact absurd (set.trans (congrArg some lasts)) hleft
      | replaced => exact others
      | overtaken => exact others
  · intro others
    cases hset : p.left with
    | none => exact .unset hset others
    | some left =>
      refine passed hset (.replaced ?_) others
      rw [hahead]
      exact Nat.pos_of_ne_zero fun hzero => hleft (hset.trans (congrArg some hzero))

/-- A user who is not patient may change the graph just before it is converted. -/
lemma of_free (hahead : p.ahead turns = .edit next :: rest)
    (others : Converts .free debounce (.edit next :: rest) graphs) :
    Outlook .free debounce p turns graphs := by
  by_cases hleft : p.left = some 0
  · refine passed hleft ?_ (hahead ▸ others)
    rw [hahead]
    exact .overtaken rfl rfl ⟨next, List.mem_cons_self⟩
  · exact (replaced_iff hleft hahead).2 others

/-- In the end nothing more is converted if nothing is due. -/
lemma nil_iff (hleft : p.left ≠ some 0) (hqueued : p.queued = []) :
    Outlook manner debounce p [] graphs ↔ graphs = [] := by
  have hahead : p.ahead [] = [] := Prospect.ahead_of_queued hqueued []
  constructor
  · rintro (⟨-, others⟩ | ⟨set, fate, others⟩)
    · rw [hahead] at others
      cases others
      rfl
    · rw [hahead] at fate others
      cases others
      cases fate with
      | converted lasts =>
        exact absurd (set.trans (congrArg some (Nat.le_zero.1 lasts))) hleft
      | replaced => rfl
      | overtaken => rfl
  · rintro rfl
    cases hset : p.left with
    | none =>
      refine .unset hset ?_
      rw [hahead]
      exact .nil
    | some left =>
      refine passed hset (.replaced ?_) ?_
      · rw [hahead]
        exact Nat.pos_of_ne_zero fun hzero => hleft (hset.trans (congrArg some hzero))
      · rw [hahead]
        exact .nil

lemma of_move (hmove : Prospect.Move manner debounce p first p')
    (h : Outlook manner debounce p' turns graphs) :
    Outlook manner debounce p turns (first ++ graphs) := by
  cases hmove with
  | stay => exact h
  | take unhurried =>
    rw [edit_iff] at h
    cases manner with
    | free => exact of_free rfl h
    | patient => exact (replaced_iff (unhurried rfl) rfl).2 h
  | convert =>
    obtain ⟨-, others⟩ | ⟨⟨⟩, -, -⟩ := h
    exact .set rfl (.converted (Nat.zero_le _)) others

/-- What may be converted stays the same when some of the time is over. -/
lemma congr_iff {turns' : List Turn} (ms : Nat) (hgraph : p'.graph = p.graph)
    (hleft : p'.left.map (· + ms) = p.left)
    (hpause : pause (p'.ahead turns') + ms = pause (p.ahead turns))
    (hnext : ∀ next, .edit next ∈ p'.ahead turns' ↔ .edit next ∈ p.ahead turns)
    (hconverts : ∀ graphs, Converts manner debounce (p'.ahead turns') graphs ↔
      Converts manner debounce (p.ahead turns) graphs) :
    Outlook manner debounce p' turns' graphs ↔ Outlook manner debounce p turns graphs := by
  constructor
  · rintro (⟨unset, others⟩ | ⟨set, fate, others⟩)
    · refine .unset ?_ ((hconverts _).1 others)
      rw [← hleft, unset]
      rfl
    · refine .set (hleft.symm.trans (congrArg _ set)) ?_ ((hconverts _).1 others)
      rw [← hgraph]
      exact (Turn.fate_iff rfl hpause hnext).1 fate
  · rintro (⟨unset, others⟩ | ⟨set, fate, others⟩)
    · exact .unset (Option.map_eq_none_iff.1 (hleft.trans unset)) ((hconverts _).2 others)
    · obtain ⟨left', hset, hsum⟩ := Option.map_eq_some_iff.1 (hleft.trans set)
      refine .set hset ?_ ((hconverts _).2 others)
      rw [hgraph]
      exact (Turn.fate_iff hsum hpause hnext).2 fate

/-- It makes no difference whether a change is still with the user or already in the queue. -/
lemma send_iff : Outlook manner debounce { p with queued := p.queued ++ [next] } turns graphs ↔
    Outlook manner debounce p (.edit next :: turns) graphs := by
  have hahead : Prospect.ahead { p with queued := p.queued ++ [next] } turns =
      p.ahead (.edit next :: turns) := by simp [Prospect.ahead]
  refine congr_iff 0 rfl Option.map_id_apply ?_ ?_ ?_
  · rw [hahead, Nat.add_zero]
  · rw [hahead]
    exact fun _ => Iff.rfl
  · rw [hahead]
    exact fun _ => Iff.rfl

/-- It makes no difference that the user wakes up. -/
lemma awake_iff : Outlook manner debounce p turns graphs ↔
    Outlook manner debounce p (.sleep 0 :: turns) graphs :=
  congr_iff 0 rfl Option.map_id_apply (Turn.pause_awake _ turns).symm
    (by simp [Prospect.ahead]) fun _ => Turn.converts_awake_iff

/-- It makes no difference that some of the sleep is over. -/
lemma wait_iff {ms whole : Nat} (hqueued : p.queued = []) (hwithin : ms ≤ whole)
    (hahead : ∀ left ∈ p.left, ms ≤ left) :
    Outlook manner debounce (p.after ms) (.sleep (whole - ms) :: turns) graphs ↔
      Outlook manner debounce p (.sleep whole :: turns) graphs := by
  have hnone := Prospect.ahead_of_queued hqueued
  have hafter (turns : List Turn) : (p.after ms).ahead turns = turns := hnone turns
  refine congr_iff ms rfl ?_ ?_ ?_ ?_
  · cases hleft : p.left with
    | none => simp [Prospect.after, hleft]
    | some left =>
      have hless : left - ms + ms = left := Nat.sub_add_cancel (hahead left hleft)
      simp [Prospect.after, hleft, hless]
  · rw [hafter, hnone, pause, pause]
    omega
  · simp [hafter, hnone]
  · simp only [hafter, hnone, Turn.converts_sleep_iff, implies_true]

/-- What is due is converted now, or a change comes first. -/
lemma due_or_overtaken (h : Outlook manner debounce p turns graphs) :
    (∃ later, graphs = p.due ++ later ∧ Outlook manner debounce p.settled turns later) ∨
      manner = .free ∧ pause (p.ahead turns) = 0 ∧ (∃ next, .edit next ∈ p.ahead turns) ∧
        Converts manner debounce (p.ahead turns) graphs := by
  by_cases hleft : p.left = some 0
  · rw [Prospect.due, if_pos hleft, Prospect.settled, if_pos hleft]
    obtain ⟨unset, -⟩ | ⟨set, fate, others⟩ := h
    · rw [hleft] at unset
      cases unset
    · rw [hleft] at set
      cases set
      cases fate with
      | converted => exact .inl ⟨_, rfl, .unset rfl others⟩
      | replaced soon => exact absurd soon (Nat.not_lt_zero _)
      | overtaken free tie next => exact .inr ⟨free, tie, next, others⟩
  · rw [Prospect.due, if_neg hleft, Prospect.settled, if_neg hleft]
    exact .inl ⟨graphs, rfl, h⟩

end Outlook

end AgentScript.Editing
