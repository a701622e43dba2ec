import AgentScript.Proofs.Graph.Placement

/-!
# When ids collide

A layout asks for one id for each declaration that it places, and an id that comes again gets the
number of its occurrence (`ids_layoutOn`).  The numbered id is not asked for, so nothing keeps it
from being some other declaration's own: two tools `t` and a tool `t-2` of one agent give the id
`tool-A-t-2` twice (`ids_collide`).

There is no other way for two nodes to get one id.  Two numbered ids differ, since a number holds no
hyphen and can be taken off again (`numbered_succ_injective`).  So the ids are told apart exactly if
no id is asked for that is the numbered form of a repeated one (`nodup_ids_iff`).  Names that are read
from a script hold no hyphen, which rules this out; names from elsewhere are arbitrary strings.
-/

namespace AgentScript

namespace Layout

/-! ## Numbers at the end of an id -/

lemma append_hyphen_inj {a b x y : List Char} (hx : '-' ∉ x) (hy : '-' ∉ y)
    (h : a ++ '-' :: x = b ++ '-' :: y) : a = b ∧ x = y := by
  rcases List.append_eq_append_iff.1 h with ⟨w, rfl, hw⟩ | ⟨w, rfl, hw⟩
  · cases w with
    | nil =>
      rw [List.nil_append, List.cons.injEq] at hw
      exact ⟨(List.append_nil a).symm, hw.2⟩
    | cons c w =>
      rw [List.cons_append, List.cons.injEq] at hw
      refine absurd ?_ hx
      rw [hw.2]
      exact List.mem_append_right _ List.mem_cons_self
  · cases w with
    | nil =>
      rw [List.nil_append, List.cons.injEq] at hw
      exact ⟨List.append_nil b, hw.2.symm⟩
    | cons c w =>
      rw [List.cons_append, List.cons.injEq] at hw
      refine absurd ?_ hy
      rw [hw.2]
      exact List.mem_append_right _ List.mem_cons_self

lemma toList_numbered_succ (id : String) (n : Nat) :
    (numbered id (n + 1)).toList = id.toList ++ '-' :: (toString (n + 2)).toList := by
  simp [numbered]

/-- Numbered ids are told apart by what was asked for and by the number, whatever was asked for. -/
lemma numbered_succ_injective {a b : String} {m n : Nat}
    (h : numbered a (m + 1) = numbered b (n + 1)) : a = b ∧ m = n := by
  have htext := congrArg String.toList h
  rw [toList_numbered_succ, toList_numbered_succ] at htext
  have hdigits : ∀ n : Nat, '-' ∉ (toString (n + 2)).toList := fun n =>
    hyphen_not_mem_numberPart (n + 1) _ List.mem_cons_self
  obtain ⟨hid, hnumber⟩ := append_hyphen_inj (hdigits m) (hdigits n) htext
  have hparts : numberPart (m + 1) = numberPart (n + 1) := by rw [numberPart, numberPart, hnumber]
  exact ⟨String.toList_injective hid, Nat.succ.inj (numberPart_injective hparts)⟩

/-- A numbered id is never the id that was asked for. -/
lemma numbered_succ_ne (id : String) (n : Nat) : numbered id (n + 1) ≠ id := by
  intro h
  have hlength := congrArg (fun id => (String.toList id).length) h
  rw [toList_numbered_succ, List.length_append, List.length_cons] at hlength
  omega

/-- Which of two equal ids is numbered decides what they share: the id asked for and the number, or
one was asked for as what the other is numbered to be. -/
lemma numbered_eq_cases {a b : String} {m n : Nat} (h : numbered a m = numbered b n) :
    (a = b ∧ m = n) ∨ (∃ k, m = k + 1 ∧ numbered a (k + 1) = b) ∨
      ∃ k, n = k + 1 ∧ numbered b (k + 1) = a := by
  cases m with
  | zero =>
    cases n with
    | zero => exact .inl ⟨h, rfl⟩
    | succ n => exact .inr (.inr ⟨n, rfl, h.symm⟩)
  | succ m =>
    cases n with
    | zero => exact .inr (.inl ⟨m, rfl, h⟩)
    | succ n =>
      obtain ⟨rfl, rfl⟩ := numbered_succ_injective h
      exact .inl ⟨rfl, rfl⟩

/-! ## Ids given one after another -/

/-- The ids that are given when some ids are asked for one after another, behind others. -/
def idsFrom (before : List String) : List String → List String
  | [] => []
  | id :: ids => idFor before id :: idsFrom (before ++ [id]) ids

lemma idsFrom_append (before ids ids' : List String) :
    idsFrom before (ids ++ ids') = idsFrom before ids ++ idsFrom (before ++ ids) ids' := by
  induction ids generalizing before with
  | nil => simp [idsFrom]
  | cons id ids ih => simp [idsFrom, ih]

lemma length_idsFrom (before ids : List String) : (idsFrom before ids).length = ids.length := by
  induction ids generalizing before with
  | nil => rfl
  | cons id ids ih => rw [idsFrom, List.length_cons, List.length_cons, ih]

/-- The `i`-th id is numbered by how often it was asked for before. -/
lemma getElem?_idsFrom (before ids : List String) (i : Nat) :
    (idsFrom before ids)[i]? =
      ids[i]?.map fun id => numbered id ((before ++ ids.take i).count id) := by
  induction ids generalizing before i with
  | nil => rfl
  | cons id ids ih =>
    cases i with
    | zero =>
      rw [idsFrom, List.getElem?_cons_zero, List.getElem?_cons_zero, List.take_zero,
        List.append_nil, Option.map_some, idFor_eq_numbered]
    | succ i =>
      rw [idsFrom, List.getElem?_cons_succ, List.getElem?_cons_succ, ih, List.take_succ_cons,
        List.append_assoc, List.singleton_append]

/-- Of what occurs more than `n` times, one occurrence has `n` others before it. -/
lemma exists_count_take {ids : List String} {id : String} {n : Nat} (h : n < ids.count id) :
    ∃ i, ids[i]? = some id ∧ (ids.take i).count id = n := by
  induction ids generalizing n with
  | nil => simp at h
  | cons id' ids ih =>
    by_cases hid : id' = id
    · cases n with
      | zero => exact ⟨0, by rw [hid, List.getElem?_cons_zero], by rw [List.take_zero, List.count_nil]⟩
      | succ n =>
        rw [hid, List.count_cons_self, Nat.add_lt_add_iff_right] at h
        obtain ⟨i, hget, hcount⟩ := ih h
        refine ⟨i + 1, by rw [List.getElem?_cons_succ, hget], ?_⟩
        rw [List.take_succ_cons, hid, List.count_cons_self, hcount]
    · rw [List.count_cons_of_ne hid] at h
      obtain ⟨i, hget, hcount⟩ := ih h
      refine ⟨i + 1, by rw [List.getElem?_cons_succ, hget], ?_⟩
      rw [List.take_succ_cons, List.count_cons_of_ne hid, hcount]

/-- An earlier occurrence has fewer of its kind before it. -/
lemma count_take_lt {ids : List String} {id : String} {i j : Nat} (hij : i < j)
    (h : ids[i]? = some id) : (ids.take i).count id < (ids.take j).count id := by
  have hprefix : (ids.take (i + 1)).count id ≤ (ids.take j).count id :=
    (List.take_sublist_take_left hij).count_le id
  rw [List.take_add_one, List.count_append, h, Option.toList_some, List.count_singleton_self]
    at hprefix
  exact hprefix

/-- **Ids are told apart** exactly if none is asked for that another one gets by its number. -/
theorem nodup_idsFrom_iff {ids : List String} :
    (idsFrom [] ids).Nodup ↔
      ∀ id n, n + 1 < ids.count id → numbered id (n + 1) ∉ ids := by
  constructor
  · intro hnodup id n hcount hmem
    obtain ⟨i, hget, hnumber⟩ := exists_count_take hcount
    obtain ⟨j, hget', hnumber'⟩ := exists_count_take (List.count_pos_iff.2 hmem)
    have hi : (idsFrom [] ids)[i]? = some (numbered id (n + 1)) := by
      rw [getElem?_idsFrom, hget, List.nil_append, Option.map_some, hnumber]
    have hj : (idsFrom [] ids)[j]? = some (numbered id (n + 1)) := by
      rw [getElem?_idsFrom, hget', List.nil_append, Option.map_some, hnumber']
      rfl
    have hlt : i < (idsFrom [] ids).length := (List.getElem?_eq_some_iff.1 hi).1
    have hij : i = j := (List.getElem?_inj hlt hnodup).1 (hi.trans hj.symm)
    rw [hij, hget', Option.some.injEq] at hget
    exact numbered_succ_ne id n hget
  · intro hfree
    rw [List.nodup_iff_getElem?_ne_getElem?]
    intro i j hij hj heq
    rw [length_idsFrom] at hj
    have hgeti := List.getElem?_eq_getElem (Nat.lt_trans hij hj)
    have hgetj := List.getElem?_eq_getElem hj
    generalize ids[i] = a at hgeti
    generalize ids[j] = b at hgetj
    rw [getElem?_idsFrom, getElem?_idsFrom, hgeti, hgetj, Option.map_some, Option.map_some,
      Option.some.injEq, List.nil_append, List.nil_append] at heq
    have hcounta := count_take_lt (Nat.lt_trans hij hj) hgeti
    have hcountb := count_take_lt hj hgetj
    rw [List.take_length] at hcounta hcountb
    obtain ⟨rfl, hcount⟩ | ⟨m, hm, hb⟩ | ⟨n, hn, ha⟩ := numbered_eq_cases heq
    · exact absurd hcount (count_take_lt hij hgeti).ne
    · exact hfree a m (hm ▸ hcounta) (hb ▸ List.mem_of_getElem? hgetj)
    · exact hfree b n (hn ▸ hcountb) (ha ▸ List.mem_of_getElem? hgeti)

/-! ## The ids of a draft -/

/-- The nodes of a draft have the ids that were given for those asked for. -/
structure Draft.Asks (d : Draft) (ids : List String) : Prop where
  asked : d.asked = ids
  nodes : d.nodes.map (·.id) = idsFrom [] ids

variable {d : Draft} {ids : List String}

lemma Draft.asks_empty : Draft.Asks {} [] := ⟨rfl, rfl⟩

lemma Draft.Asks.addNode (h : d.Asks ids) (id : String) (position : Position) (content : Content) :
    (d.addNode id position content).Asks (ids ++ [id]) where
  asked := by rw [Draft.addNode, h.asked]
  nodes := by
    rw [Draft.addNode, List.map_append, h.nodes, idsFrom_append, List.nil_append, h.asked]
    rfl

lemma Draft.Asks.addEdge (h : d.Asks ids) (e : Edge) : (d.addEdge e).Asks ids := ⟨h.asked, h.nodes⟩

/-- A step for each declaration that asks for its id. -/
lemma Draft.Asks.foldl {α : Type} (step : Draft → α × Nat → Draft) (id : α → String)
    (hstep : ∀ {d ids}, d.Asks ids → ∀ a, (step d a).Asks (ids ++ [id a.1])) (h : d.Asks ids)
    (as : List (α × Nat)) : (as.foldl step d).Asks (ids ++ as.map (id ·.1)) := by
  induction as generalizing d ids with
  | nil => rwa [List.map_nil, List.append_nil]
  | cons a as ih =>
    rw [List.foldl_cons, List.map_cons, List.append_cons]
    exact ih (hstep h a)

variable (c : Geometry) (agent agentId : String) (y : Float)

lemma Draft.Asks.addTools (h : d.Asks ids) (tools : List ToolDecl) :
    (tools.zipIdx.foldl (fun d t => addTool c agent agentId y d t.1 t.2) d).Asks
      (ids ++ tools.map fun t => (Title.tool agent t.name).id) := by
  rw [← map_zipIdx tools]
  exact h.foldl (fun d t => addTool c agent agentId y d t.1 t.2)
    (fun t => (Title.tool agent t.name).id) (fun h t => (h.addNode _ _ _).addEdge _) _

lemma Draft.Asks.addEvents (h : d.Asks ids) (events : List EventDecl) :
    (events.zipIdx.foldl (fun d e => addEvent c agent agentId y d e.1 e.2) d).Asks
      (ids ++ events.map fun e => (Title.event agent e.name).id) := by
  rw [← map_zipIdx events]
  exact h.foldl (fun d e => addEvent c agent agentId y d e.1 e.2)
    (fun e => (Title.event agent e.name).id) (fun h e => (h.addNode _ _ _).addEdge _) _

lemma Draft.Asks.addState (h : d.Asks ids) (state? : Option StateDecl) :
    (addState c agent agentId y d state?).Asks
      (ids ++ (state?.map fun _ => (Title.state agent).id).toList) := by
  cases state? with
  | none =>
    rw [Option.map_none, Option.toList_none, List.append_nil]
    exact h
  | some s => exact (h.addNode _ _ _).addEdge _

end Layout

open Layout

/-- The ids that a layout asks for, in its order. -/
def Outline.askedIds (o : Outline) : List String := o.placed.map (·.title.id)

variable (c : Geometry) (o : Outline)

lemma map_id_toolsUnder (agent : String) :
    (o.toolsUnder agent).map (fun t => (Title.tool agent t.name).id) =
      ((o.toolsUnder agent).map Declaration.tool).map (·.title.id) := by
  rw [List.map_map]
  apply List.map_congr_left
  intro t ht
  rw [← beq_iff_eq.1 (List.mem_filter.1 ht).2]
  rfl

lemma map_id_eventsUnder (agent : String) :
    (o.eventsUnder agent).map (fun e => (Title.event agent e.name).id) =
      ((o.eventsUnder agent).map Declaration.event).map (·.title.id) := by
  rw [List.map_map]
  apply List.map_congr_left
  intro e he
  rw [← beq_iff_eq.1 (List.mem_filter.1 he).2]
  rfl

lemma map_id_stateUnder? (agent : String) :
    ((o.stateUnder? agent).map fun _ => (Title.state agent).id).toList =
      ((o.stateUnder? agent).map Declaration.state).toList.map (·.title.id) := by
  cases hstate : o.stateUnder? agent with
  | none => rfl
  | some s =>
    have howner : (s.agent == agent) = true :=
      List.find?_some (p := fun s : StateDecl => s.agent == agent) hstate
    rw [← beq_iff_eq.1 howner]
    rfl

/-- An agent asks for its own id and for those of what is placed around it. -/
lemma asks_addAgent {d : Draft} {ids : List String} (h : d.Asks ids) (a : AgentDecl) (row : Nat) :
    (addAgent c o d a row).Asks (ids ++ (o.star a).map (·.title.id)) := by
  simp only [addAgent]
  generalize heightOf c.agentYStart c.agentYSpacing row = y
  generalize idFor d.asked ("agent-" ++ a.name) = agentId
  have hagent := h.addNode (Title.agent a.name).id ⟨c.agentX, y⟩ (Declaration.agent a).content
  have htools := hagent.addTools c a.name agentId y (o.toolsUnder a.name)
  have hevents := htools.addEvents c a.name agentId y (o.eventsUnder a.name)
  have hall := hevents.addState c a.name agentId y (o.stateUnder? a.name)
  rw [map_id_toolsUnder, map_id_eventsUnder, map_id_stateUnder?] at hall
  rw [Outline.star, List.cons_append, List.cons_append, List.map_cons, List.map_append,
    List.map_append, List.append_cons, ← List.append_assoc, ← List.append_assoc]
  exact hall

/-- **The ids of a layout** are those that are given for the ids asked for. -/
theorem ids_layoutOn : (layoutOn c o).nodes.map (·.id) = idsFrom [] o.askedIds := by
  have hagents : ∀ (agents : List (AgentDecl × Nat)) {d : Draft} {ids : List String}, d.Asks ids →
      (agents.foldl (fun d a => addAgent c o d a.1 a.2) d).Asks
        (ids ++ (agents.map (·.1)).flatMap fun a => (o.star a).map (·.title.id)) := by
    intro agents
    induction agents with
    | nil => exact fun h => by simpa using h
    | cons a agents ih =>
      intro d ids h
      rw [List.foldl_cons, List.map_cons, List.flatMap_cons, ← List.append_assoc]
      exact ih (asks_addAgent c o h a.1 a.2)
  have hstars := hagents (placedAgents o.agents).zipIdx Draft.asks_empty
  have hall := hstars.foldl (fun d t => addType c d t.1 t.2) (fun t => (Title.type t.name).id)
    (fun h t => h.addNode _ _ _) o.types.zipIdx
  have hplaced : [] ++ ((placedAgents o.agents).zipIdx.map (·.1)).flatMap
        (fun a => (o.star a).map (·.title.id)) ++
      o.types.zipIdx.map (fun t => (Title.type t.1.name).id) = o.askedIds := by
    rw [map_zipIdx o.types (fun t => (Title.type t.name).id), List.zipIdx_map_fst, List.nil_append,
      Outline.askedIds, Outline.placed, List.map_append, List.map_flatMap, List.map_map]
    rfl
  rw [← hplaced]
  exact hall.nodes

/-- **When the ids of a layout are told apart**: exactly if no declaration's own id is what another id,
asked for so often, gets by its number. -/
theorem nodup_ids_iff :
    ((layoutOn c o).nodes.map (·.id)).Nodup ↔
      ∀ id n, n + 1 < o.askedIds.count id → numbered id (n + 1) ∉ o.askedIds := by
  rw [ids_layoutOn]
  exact nodup_idsFrom_iff

/-- Two tools of one name, and one whose name looks like the second of them. -/
def clashingOutline : Outline where
  agents := [⟨"A", none, none, none, ⟨1, 1⟩⟩]
  tools := [⟨"t", "", none, none, "A", ⟨2, 3⟩⟩, ⟨"t", "", none, none, "A", ⟨3, 3⟩⟩,
    ⟨"t-2", "", none, none, "A", ⟨4, 3⟩⟩]

/-- Two nodes can get one id, wherever they are placed. -/
theorem ids_collide : ¬ ∀ c o, ((layoutOn c o).nodes.map (·.id)).Nodup := by
  intro h
  have hnodup := h {} clashingOutline
  rw [ids_layoutOn] at hnodup
  revert hnodup
  decide +kernel

end AgentScript
