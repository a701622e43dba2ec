import AgentScript.Proofs.Script.Steps
import Mathlib.Data.Finset.Card
import Mathlib.Data.List.Perm.Basic

/-!
# What is declared again, and by whom

Every agent takes a name, every tool or event handler takes one among the members of its agent, and
every state block takes the place of its agent's state.  Reading notes what was taken before.  So at
any time there are as many declarations of a sort as there are different things taken and notes
together (`Reading.Accounted`).  The notes are made in three places and from four lists, and state
blocks are recorded when they are closed, the last of them only at the end of the text; but all of
them are made in the same way: a note is made exactly if the thing was taken before.

A member is recorded only within an agent, and the agent was recorded when it was opened
(`Reading.Owned`).  Neither depends on the text: braces may be missing, and headers may stand anywhere.
-/

namespace AgentScript.Script

/-- Whether the cause is that something was declared before. -/
def Cause.isAgain : Cause → Bool
  | .agentAgain _ => true
  | .memberAgain _ _ _ => true
  | .stateAgain _ => true
  | _ => false

/-- What a header takes, if the given agent is around it, as the cause of a note that it is taken. -/
def Header.taken? (agent? : Option String) : Header → Option Cause
  | .agent name => some (.agentAgain name)
  | .tool name _ _ => agent?.map (.memberAgain · .tool name)
  | .event name => agent?.map (.memberAgain · .event name)
  | _ => none

/-- What a scope takes when it is closed. -/
def Scope.taken? (scope : Scope) : Option Cause := scope.owner?.map .stateAgain

namespace Reading

/-- All that was taken by declarations, as often as it was. -/
def taken (r : Reading) : List Cause :=
  r.agents.map (.agentAgain ·.name) ++ r.tools.map (fun t => .memberAgain t.agent .tool t.name) ++
    r.events.map (fun e => .memberAgain e.agent .event e.name) ++ r.states.map (.stateAgain ·.agent)

/-- How many findings are of a sort. -/
def noted (r : Reading) (sort : Cause → Bool) : Nat := r.findings.countP (sort ·.cause)

/-- Of any sort, as much was taken as different things were taken and notes were made. -/
def Accounted (r : Reading) : Prop :=
  ∀ sort : Cause → Bool, (∀ c, sort c = true → c.isAgain = true) →
    (r.taken.filter sort).toFinset.card + r.noted sort = (r.taken.filter sort).length

variable {r d : Reading} {n : Nat} {later : List (List Char)}

/-! ## What a step takes -/

lemma mem_taken {c : Cause} : c ∈ r.taken ↔
    (∃ a ∈ r.agents, .agentAgain a.name = c) ∨
      (∃ t ∈ r.tools, .memberAgain t.agent .tool t.name = c) ∨
        (∃ e ∈ r.events, .memberAgain e.agent .event e.name = c) ∨
          ∃ s ∈ r.states, .stateAgain s.agent = c := by
  simp only [taken, List.mem_append, List.mem_map, or_assoc]

@[simp] lemma taken_note (r : Reading) (line : Nat) (cause? : Option Cause) :
    (r.note line cause?).taken = r.taken := rfl

lemma taken_append (r d : Reading) : (r ++ d).taken.Perm (r.taken ++ d.taken) := by
  rw [List.perm_iff_count]
  intro c
  simp only [taken, agents_append, tools_append, events_append, states_append, List.map_append,
    List.count_append]
  omega

@[simp] lemma noted_append (r d : Reading) (sort : Cause → Bool) :
    (r ++ d).noted sort = r.noted sort + d.noted sort := List.countP_append

lemma noted_note (r : Reading) (line : Nat) (cause? : Option Cause) (sort : Cause → Bool) :
    (r.note line cause?).noted sort = r.noted sort + (cause?.toList.filter sort).length := by
  rw [noted, noted, findings_note, List.countP_append]
  cases cause? with
  | none => rfl
  | some cause => simp [List.countP_cons, List.filter_cons, apply_ite]

/-- A header is noted exactly if what it takes was taken before. -/
lemma repeats_eq (r : Reading) (agent? : Option String) (header : Header) :
    r.repeats agent? header = (header.taken? agent?).filter (· ∈ r.taken) := by
  cases header with
  | agent name => simp [repeats, Header.taken?, Option.filter, mem_taken]
  | tool name params returns =>
    cases agent? <;> simp [repeats, Header.taken?, Option.filter, mem_taken]
  | event name => cases agent? <;> simp [repeats, Header.taken?, Option.filter, mem_taken]
  | state => rfl
  | type name => rfl

lemma taken_opened (agent? : Option String) (o : Opening) :
    (opened agent? n later o).taken = (o.header.taken? agent?).toList := by
  obtain ⟨header, column, rest⟩ := o
  cases header <;> cases agent? <;> rfl

lemma noted_opened (agent? : Option String) (o : Opening) {sort : Cause → Bool}
    (hsort : ∀ c, sort c = true → c.isAgain = true) : (opened agent? n later o).noted sort = 0 := by
  rw [noted, List.countP_eq_zero]
  intro f hf hcause
  have hagain := hsort f.cause hcause
  obtain ⟨header, column, rest⟩ := o
  cases header <;> cases agent? <;> simp [opened] at hf <;> subst hf <;> cases hagain

/-- A state block is noted exactly if its agent had one before. -/
lemma repeatsState_eq (r : Reading) (scope : Scope) :
    r.repeatsState scope = scope.taken?.filter (· ∈ r.taken) := by
  rw [repeatsState, Scope.taken?]
  cases scope.owner? <;> simp [Option.filter, mem_taken]

lemma taken_kept (scope : Scope) : (kept scope).taken = scope.taken?.toList := by
  match scope with
  | .agent _ _ => rfl
  | .block _ => rfl
  | .state none _ _ => rfl
  | .state (some _) _ _ => rfl
  | .type _ _ _ => rfl

/-! ## The balance is kept -/

lemma Accounted.congr {r' : Reading} (h : r.Accounted) (htaken : r'.taken = r.taken)
    (hnoted : ∀ sort : Cause → Bool, (∀ c, sort c = true → c.isAgain = true) →
      r'.noted sort = r.noted sort) : r'.Accounted := by
  intro sort hsort
  rw [htaken, hnoted sort hsort]
  exact h sort hsort

lemma Accounted.note (h : r.Accounted) (line : Nat) {cause : Cause} (hcause : cause.isAgain = false) :
    (r.note line (some cause)).Accounted := by
  refine h.congr (r.taken_note line _) fun sort hsort => ?_
  have hfalse : sort cause = false := by
    rw [← Bool.not_eq_true]
    intro htrue
    rw [hsort cause htrue] at hcause
    cases hcause
  rw [noted_note, Option.toList_some, List.filter_cons_of_neg (by simp [hfalse]), List.filter_nil]
  rfl

/-- Whatever is taken, a note that is made exactly if it was taken before keeps the balance. -/
lemma Accounted.add (h : r.Accounted) {line : Nat} {c? : Option Cause}
    (htaken : d.taken = c?.toList)
    (hnoted : ∀ sort : Cause → Bool, (∀ c, sort c = true → c.isAgain = true) → d.noted sort = 0) :
    (r.note line (c?.filter (· ∈ r.taken)) ++ d).Accounted := by
  intro sort hsort
  have hperm : ((r.note line (c?.filter (· ∈ r.taken)) ++ d).taken.filter sort).Perm
      (r.taken.filter sort ++ c?.toList.filter sort) := by
    rw [← List.filter_append, ← htaken]
    exact (taken_append _ d).filter sort
  rw [List.toFinset_eq_of_perm _ _ hperm, hperm.length_eq, noted_append, hnoted sort hsort,
    noted_note, List.length_append, ← h sort hsort]
  cases c? with
  | none => simp
  | some c =>
    cases hc : sort c with
    | false =>
      have hnone : ((Option.filter (· ∈ r.taken) (some c)).toList.filter sort).length = 0 := by
        rw [Option.filter]
        split <;> simp [hc]
      simp [hc, hnone]
    | true =>
      have hadd : (r.taken.filter sort ++ [c]).toFinset = insert c (r.taken.filter sort).toFinset := by
        ext x
        simp
      rw [Option.toList_some, List.filter_cons_of_pos hc, List.filter_nil, hadd]
      by_cases hmem : c ∈ r.taken
      · simp [Option.filter, hmem, hc]
        omega
      · simp [Option.filter, hmem]
        omega

lemma Accounted.openOne (h : r.Accounted) (o : Opening) : (r.openOne n later o).Accounted := by
  rw [openOne_eq, repeats_eq]
  exact h.add (taken_opened _ o) fun sort hsort => noted_opened _ o hsort

lemma Accounted.keep (h : r.Accounted) (scope : Scope) :
    (r.note n (r.repeatsState scope) ++ kept scope).Accounted := by
  rw [repeatsState_eq]
  refine h.add (taken_kept scope) fun sort _ => ?_
  rw [noted, findings_kept, List.countP_nil]

lemma Accounted.collect (h : r.Accounted) (segment : List Char) : (r.collect segment).Accounted := by
  rw [Reading.collect]
  cases r.scopes with
  | nil => exact h
  | cons scope outer => exact h.congr rfl fun _ _ => rfl

lemma Accounted.close (h : r.Accounted) (line : Nat) : (r.close line).Accounted := by
  cases hscopes : r.scopes with
  | nil =>
    rw [close_eq_of_nil hscopes]
    exact h.note line rfl
  | cons scope outer =>
    rw [close_eq_of_cons hscopes]
    exact Accounted.keep (r := r.pop) h scope

lemma Accounted.body (h : r.Accounted) (segment cs : List Char) :
    (body n segment cs r).Accounted := by
  refine body_induction ?_ ?_ ?_ h segment cs
  · exact fun _ segment hr => hr.collect segment
  · exact fun _ hr => hr.congr rfl fun _ _ => rfl
  · exact fun _ hr => hr.close n

lemma Accounted.line (h : r.Accounted) (number : Nat) (text : List Char) :
    (r.line number text later).Accounted := by
  rw [Reading.line]
  exact (List.foldlRecOn _ _ h fun r hr o _ => hr.openOne o).body _ _

lemma Accounted.linesFrom (h : r.Accounted) (number : Nat) (ls : List (List Char)) :
    (linesFrom number ls r).Accounted :=
  linesFrom_induction (fun _ number text _ hr => hr.line number text) h number ls

lemma Accounted.finish (h : r.Accounted) (lineCount : Nat) : (r.finish lineCount).Accounted := by
  rw [finish_eq]
  refine List.foldlRecOn _ _ (h.congr rfl fun _ _ => rfl) fun r hr scope _ => ?_
  exact (hr.note scope.line rfl).keep scope

/-! ## Owners are recorded -/

/-- The names of the agents that something belongs to, or can come to belong to. -/
def owners (r : Reading) : List String :=
  r.tools.map (·.agent) ++ r.events.map (·.agent) ++ r.states.map (·.agent) ++
    r.scopes.filterMap Scope.agentName? ++ r.scopes.filterMap Scope.owner?

/-- Whatever has an owner belongs to an agent that was recorded. -/
def Owned (r : Reading) : Prop := r.owners ⊆ r.agents.map (·.name)

lemma owners_append (r d : Reading) : (r ++ d).owners ⊆ r.owners ++ d.owners := by
  intro name
  simp only [owners, tools_append, events_append, states_append, scopes_append, List.map_append,
    List.filterMap_append, List.mem_append]
  tauto

/-- What a header adds belongs to the agent around it or is its own. -/
lemma owners_opened (agent? : Option String) (o : Opening) :
    (opened agent? n later o).owners ⊆
      agent?.toList ++ (opened agent? n later o).agents.map (·.name) := by
  intro name hname
  obtain ⟨header, column, rest⟩ := o
  cases header <;> cases agent? <;>
    simp [owners, opened, Scope.agentName?, Scope.owner?] at hname ⊢ <;> simp [hname]

lemma owners_kept (scope : Scope) : (kept scope).owners ⊆ scope.owner?.toList := by
  match scope with
  | .agent _ _ => exact List.nil_subset _
  | .block _ => exact List.nil_subset _
  | .state none _ _ => exact List.nil_subset _
  | .state (some _) _ _ => exact List.Subset.refl _
  | .type _ _ _ => exact List.nil_subset _

/-- What is added to a reading has owners if it belongs to agents that have been recorded. -/
lemma Owned.append (h : r.Owned) (hd : d.owners ⊆ r.agents.map (·.name) ++ d.agents.map (·.name)) :
    (r ++ d).Owned := by
  intro name hname
  rw [agents_append, List.map_append]
  rcases List.mem_append.1 (owners_append r d hname) with hname | hname
  · exact List.mem_append_left _ (h hname)
  · exact hd hname

lemma Owned.openOne (h : r.Owned) (o : Opening) : (r.openOne n later o).Owned := by
  rw [openOne_eq]
  have hnote : (r.note n (r.repeats r.agent? o.header)).Owned := h
  refine hnote.append (List.Subset.trans (owners_opened _ o) ?_)
  refine List.append_subset.2 ⟨fun name hname => ?_, List.subset_append_right _ _⟩
  have hagent : name ∈ r.scopes.filterMap Scope.agentName? := by
    obtain ⟨scope, hscope, hname⟩ := List.exists_of_findSome?_eq_some (Option.mem_toList.1 hname)
    exact List.mem_filterMap.2 ⟨scope, hscope, hname⟩
  refine List.mem_append_left _ (h ?_)
  simp only [owners, List.mem_append]
  exact .inl (.inr hagent)

/-- A scope that is open has an owner that was recorded, if it has one. -/
lemma Owned.owner? (h : r.Owned) {scope : Scope} (hscope : scope ∈ r.scopes) :
    scope.owner?.toList ⊆ r.agents.map (·.name) := by
  intro name hname
  apply h
  simp only [owners, List.mem_append]
  exact .inr (List.mem_filterMap.2 ⟨scope, hscope, Option.mem_toList.1 hname⟩)

lemma Owned.keep (h : r.Owned) (line : Nat) (cause? : Option Cause) {scope : Scope}
    (hscope : scope.owner?.toList ⊆ r.agents.map (·.name)) :
    (r.note line cause? ++ kept scope).Owned := by
  have hnote : (r.note line cause?).Owned := h
  exact hnote.append
    (List.Subset.trans (owners_kept scope) (List.Subset.trans hscope (List.subset_append_left _ _)))

lemma Owned.withScopes (h : r.Owned) {scopes : List Scope}
    (hnames : scopes.filterMap Scope.agentName? ⊆ r.scopes.filterMap Scope.agentName?)
    (howners : scopes.filterMap Scope.owner? ⊆ r.scopes.filterMap Scope.owner?) :
    Owned { r with scopes } := by
  intro name hname
  apply h
  simp only [owners, List.mem_append] at hname ⊢
  rcases hname with (hname | hname) | hname
  · exact .inl (.inl hname)
  · exact .inl (.inr (hnames hname))
  · exact .inr (howners hname)

lemma Owned.collect (h : r.Owned) (segment : List Char) : (r.collect segment).Owned := by
  rw [Reading.collect]
  cases hscopes : r.scopes with
  | nil => exact h
  | cons scope outer =>
    have hsame : (scope.collect segment).agentName? = scope.agentName? ∧
        (scope.collect segment).owner? = scope.owner? := by
      cases scope <;> exact ⟨rfl, rfl⟩
    refine h.withScopes ?_ ?_ <;> rw [hscopes, List.filterMap_cons, List.filterMap_cons]
    · rw [hsame.1]
      exact List.Subset.refl _
    · rw [hsame.2]
      exact List.Subset.refl _

lemma Owned.close (h : r.Owned) (line : Nat) : (r.close line).Owned := by
  cases hscopes : r.scopes with
  | nil =>
    rw [close_eq_of_nil hscopes]
    exact h
  | cons scope outer =>
    have htail : r.scopes.tail ⊆ r.scopes := List.tail_subset _
    have hpop : r.pop.Owned :=
      h.withScopes (List.filterMap_subset _ htail) (List.filterMap_subset _ htail)
    rw [close_eq_of_cons hscopes]
    exact hpop.keep line _ (h.owner? (by rw [hscopes]; exact List.mem_cons_self))

lemma Owned.body (h : r.Owned) (segment cs : List Char) : (body n segment cs r).Owned := by
  refine body_induction ?_ ?_ ?_ h segment cs
  · exact fun _ segment hr => hr.collect segment
  · exact fun _ hr => hr.withScopes (List.Subset.refl _) (List.Subset.refl _)
  · exact fun _ hr => hr.close n

lemma Owned.line (h : r.Owned) (number : Nat) (text : List Char) :
    (r.line number text later).Owned := by
  rw [Reading.line]
  exact Owned.body (List.foldlRecOn _ _ h fun r hr o _ => hr.openOne o) _ _

lemma Owned.linesFrom (h : r.Owned) (number : Nat) (ls : List (List Char)) :
    (linesFrom number ls r).Owned :=
  linesFrom_induction (fun _ number text _ hr => hr.line number text) h number ls

lemma Owned.finish (h : r.Owned) (lineCount : Nat) : (r.finish lineCount).Owned := by
  rw [finish_eq]
  have hempty : Owned { r with scopes := [] } :=
    h.withScopes (List.nil_subset _) (List.nil_subset _)
  have hone : ∀ (r' : Reading) (scope : Scope), scope ∈ r.scopes →
      r'.Owned ∧ r'.agents = r.agents → (finishOne lineCount r' scope).Owned ∧
        (finishOne lineCount r' scope).agents = r.agents := by
    intro r' scope hscope hr'
    have hopen := h.owner? hscope
    rw [← hr'.2] at hopen
    have hnote : (r'.note scope.line (some (.neverClosed scope.opener scope.line))).Owned := hr'.1
    refine ⟨hnote.keep lineCount _ hopen, ?_⟩
    rw [finishOne, agents_append, agents_note, agents_note, agents_kept, List.append_nil, hr'.2]
  exact (List.foldlRecOn (motive := fun r' => r'.Owned ∧ r'.agents = r.agents) r.scopes _
    ⟨hempty, rfl⟩ fun r' hr' scope hscope => hone r' scope hscope hr').1

end Reading

/-- **The balance holds of every text.** -/
theorem accounted_reading (text : String) : (reading text).Accounted := by
  have hempty : Reading.Accounted {} := fun _ _ => rfl
  exact (hempty.linesFrom 1 _).finish _

/-- **Whatever is recorded belongs to an agent that is recorded**, whatever the text. -/
theorem owned_reading (text : String) : (reading text).Owned := by
  have hempty : Reading.Owned {} := List.nil_subset _
  exact (hempty.linesFrom 1 _).finish _

end AgentScript.Script
