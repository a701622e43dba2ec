import AgentScript.Proofs.Graph.Regeneration
import AgentScript.Proofs.Script.Repeats

/-!
# What a layout places

The layout of an outline goes from agent to agent, and places around each what belongs to it; the
types come last.  Written down without positions it is a list of *spots*: each holds a declaration
and the number of declarations with the same title that were placed before it.  Title and number are
the id of the node, and the declaration is what the node says and what it is linked to
(`Outline.Sound.shows_layoutOn`).

A title is what an id is made of, the kind of node and its names.  Ids tell titles apart
(`Title.id_injective`), so counting ids is counting titles.

Nothing that was read is left out but what only repeats an agent or the state block of an agent: each
member belongs to an agent, the agent gets its star, and the star holds the members in the order in
which they were recorded.  So among the declarations of one title, spots are numbered in that order
(`Outline.Owned.filter_placed`), and up to order the spots are those of the declarations
(`Outline.Owned.perm_placed`).
-/

namespace AgentScript

open Script Text

/-! ## Titles -/

/-- What a node is called by: its kind, and the names that tell it apart within its kind. -/
inductive Title where
  | agent (name : String)
  | tool (owner name : String)
  | event (owner name : String)
  | state (owner : String)
  | type (name : String)
  deriving DecidableEq, Repr, Inhabited

namespace Title

/-- The id that a layout asks for. -/
def id : Title → String
  | .agent name => "agent-" ++ name
  | .tool owner name => "tool-" ++ owner ++ "-" ++ name
  | .event owner name => "event-" ++ owner ++ "-" ++ name
  | .state owner => "state-" ++ owner
  | .type name => "type-" ++ name

/-- The names in a title. -/
def names : Title → List String
  | .agent name => [name]
  | .tool owner name => [owner, name]
  | .event owner name => [owner, name]
  | .state owner => [owner]
  | .type name => [name]

/-- The word for the kind. -/
def word : Title → String
  | .agent _ => "agent"
  | .tool _ _ => "tool"
  | .event _ _ => "event"
  | .state _ => "state"
  | .type _ => "type"

/-- The parts of the id, between its hyphens. -/
def parts (t : Title) : List (List Char) := t.word.toList :: t.names.map String.toList

/-- The names are names. -/
def Sound (t : Title) : Prop := ∀ name ∈ t.names, isName name.toList = true

variable {t t' : Title}

lemma toList_id (t : Title) : t.id.toList = ['-'].intercalate t.parts := by
  cases t <;> simp [id, parts, word, names]

lemma Sound.isAsked (h : t.Sound) : Layout.IsAsked t.id := by
  refine ⟨t.word.toList, t.names.map String.toList, t.toList_id, ?_, fun part hpart => ?_⟩
  · cases t <;> simp [word, names, Layout.idShapes]
  · obtain ⟨name, hname, rfl⟩ := List.mem_map.1 hpart
    exact Layout.hyphen_not_mem_of_isName (h name hname)

lemma Sound.hyphen_not_mem (h : t.Sound) : ∀ part ∈ t.parts, '-' ∉ part := by
  intro part hpart
  rcases List.mem_cons.1 hpart with rfl | hpart
  · cases t <;> simp [word]
  · obtain ⟨name, hname, rfl⟩ := List.mem_map.1 hpart
    exact Layout.hyphen_not_mem_of_isName (h name hname)

lemma parts_injective (h : t.parts = t'.parts) : t = t' := by
  have hnames : t.names = t'.names :=
    List.map_injective_iff.2 (fun _ _ => String.toList_injective) (List.cons.inj h).2
  have hword : t.word = t'.word := String.toList_injective (List.cons.inj h).1
  cases t <;> cases t' <;> simp_all [word, names]

/-- Ids tell titles apart. -/
lemma id_injective (h : t.Sound) (h' : t'.Sound) (heq : t.id = t'.id) : t = t' := by
  have hparts := congrArg (fun id => (String.toList id).splitOn '-') heq
  simp only [toList_id] at hparts
  rw [List.splitOn_intercalate '-' h.hyphen_not_mem (List.cons_ne_nil _ _),
    List.splitOn_intercalate '-' h'.hyphen_not_mem (List.cons_ne_nil _ _)] at hparts
  exact parts_injective hparts

/-- To count ids is to count titles. -/
lemma count_id {ts : List Title} (hts : ∀ t ∈ ts, t.Sound) (h : t.Sound) :
    (ts.map id).count t.id = ts.count t := by
  induction ts with
  | nil => rfl
  | cons t' ts ih =>
    rw [List.forall_mem_cons] at hts
    rw [List.map_cons, List.count_cons, List.count_cons, ih hts.2]
    by_cases heq : t' = t
    · rw [heq, beq_self_eq_true, beq_self_eq_true]
    · have hid : t'.id ≠ t.id := fun hid => heq (id_injective hts.1 h hid)
      rw [beq_eq_false_iff_ne.2 heq, beq_eq_false_iff_ne.2 hid]

end Title

/-! ## Declarations -/

/-- A declaration that can get a node. -/
inductive Declaration where
  | agent (a : AgentDecl)
  | tool (t : ToolDecl)
  | event (e : EventDecl)
  | state (s : StateDecl)
  | type (t : TypeDecl)
  deriving DecidableEq, Repr, Inhabited

namespace Declaration

def title : Declaration → Title
  | .agent a => .agent a.name
  | .tool t => .tool t.agent t.name
  | .event e => .event e.agent e.name
  | .state s => .state s.agent
  | .type t => .type t.name

/-- What the node of a declaration says. -/
def content : Declaration → Content
  | .agent a =>
    .agent ⟨a.name, a.description, a.version, a.model.bind (·.name), a.model.bind (·.provider)⟩
  | .tool t => .tool ⟨t.name, some t.params, t.returns, t.description⟩
  | .event e => .event ⟨e.name, some e.eventClass⟩
  | .state s => .state ⟨Layout.stateLabel, some (s.fields.map StateField.render)⟩
  | .type t => .state ⟨t.name, some (t.fields.map TypeField.render)⟩

/-- The edge of a declaration whose node has the given id: none but members have one. -/
def edge? (id : String) : Declaration → Option Edge
  | .tool t => some (.joining id (Title.agent t.agent).id)
  | .event e => some (.joining (Title.agent e.agent).id id)
  | .state s => some ((Edge.joining (Title.agent s.agent).id id).leavingAt Layout.stateHandle)
  | _ => none

end Declaration

/-- A declaration as it is placed. -/
structure Spot where
  declaration : Declaration
  /-- How many declarations of its title were placed before. -/
  number : Nat
  deriving DecidableEq, Repr, Inhabited

namespace Spot

/-- The id of its node. -/
def id (s : Spot) : String := Layout.numbered s.declaration.title.id s.number

def edge? (s : Spot) : Option Edge := s.declaration.edge? s.id

/-- What there is to see of its node, wherever it stands. -/
def shown (s : Spot) : String × Content := (s.id, s.declaration.content)

end Spot

/-- The spots of some declarations, after those of the given titles. -/
def spotsFrom (before : List Title) : List Declaration → List Spot
  | [] => []
  | d :: ds => ⟨d, before.count d.title⟩ :: spotsFrom (before ++ [d.title]) ds

lemma spotsFrom_append (before : List Title) (ds ds' : List Declaration) :
    spotsFrom before (ds ++ ds') =
      spotsFrom before ds ++ spotsFrom (before ++ ds.map (·.title)) ds' := by
  induction ds generalizing before with
  | nil => simp [spotsFrom]
  | cons d ds ih =>
    rw [List.cons_append, spotsFrom, spotsFrom, ih, List.cons_append, List.map_cons,
      List.append_assoc]
    rfl

/-- A declaration is placed under the number it has among those of its title. -/
lemma mem_spotsFrom {before : List Title} {ds : List Declaration} {s : Spot} :
    s ∈ spotsFrom before ds ↔ ∃ i, s.number = before.count s.declaration.title + i ∧
      (ds.filter (·.title = s.declaration.title))[i]? = some s.declaration := by
  induction ds generalizing before with
  | nil => simp [spotsFrom]
  | cons d ds ih =>
    rw [spotsFrom, List.mem_cons, ih, List.count_append, List.count_singleton]
    by_cases htitle : d.title = s.declaration.title
    · rw [List.filter_cons_of_pos (by simpa using htitle)]
      constructor
      · rintro (rfl | ⟨i, hi, hget⟩)
        · exact ⟨0, rfl, rfl⟩
        · refine ⟨i + 1, ?_, hget⟩
          rw [hi, if_pos (beq_iff_eq.2 htitle)]
          omega
      · rintro ⟨_ | i, hi, hget⟩
        · left
          obtain ⟨declaration, number⟩ := s
          obtain rfl : d = declaration := Option.some.inj hget
          rw [Nat.add_zero] at hi
          rw [← hi]
        · right
          refine ⟨i, ?_, hget⟩
          rw [hi, if_pos (beq_iff_eq.2 htitle)]
          omega
    · rw [List.filter_cons_of_neg (by simpa using htitle), if_neg (by simpa using htitle),
        Nat.add_zero]
      constructor
      · rintro (rfl | h)
        · exact absurd rfl htitle
        · exact h
      · exact .inr

/-! ## Drafts that show declarations -/

namespace Layout

/-- A draft whose nodes and edges are those of some declarations, in their order. -/
structure Draft.Shows (d : Draft) (ds : List Declaration) : Prop where
  sound : ∀ e ∈ ds, e.title.Sound
  asked : d.asked = ds.map (·.title.id)
  nodes : d.nodes.map (fun n => (n.id, n.content)) = (spotsFrom [] ds).map Spot.shown
  edges : d.edges = (spotsFrom [] ds).filterMap Spot.edge?

variable {d : Draft} {ds : List Declaration}

lemma Draft.shows_empty : Draft.Shows {} [] := ⟨fun _ h => absurd h List.not_mem_nil, rfl, rfl, rfl⟩

/-- The id that a declaration gets is that of its spot. -/
lemma Draft.Shows.idFor_eq (h : d.Shows ds) {e : Declaration} (he : e.title.Sound) :
    idFor d.asked e.title.id = numbered e.title.id ((ds.map (·.title)).count e.title) := by
  have hsound : ∀ t ∈ ds.map (·.title), t.Sound := by
    intro t ht
    obtain ⟨e', he', rfl⟩ := List.mem_map.1 ht
    exact h.sound e' he'
  rw [idFor_eq_numbered, h.asked, ← Title.count_id hsound he, List.map_map]
  rfl

/-- A declaration more is one spot more. -/
lemma Draft.Shows.add (h : d.Shows ds) {e : Declaration} (he : e.title.Sound) (position : Position)
    {d' : Draft} (hasked : d'.asked = d.asked ++ [e.title.id])
    (hnodes : d'.nodes = d.nodes ++ [⟨idFor d.asked e.title.id, position, e.content⟩])
    (hedges : d'.edges = d.edges ++ (e.edge? (idFor d.asked e.title.id)).toList) :
    d'.Shows (ds ++ [e]) where
  sound := by
    intro e' he'
    rcases List.mem_append.1 he' with he' | he'
    · exact h.sound e' he'
    · rw [List.mem_singleton.1 he']
      exact he
  asked := by rw [hasked, h.asked, List.map_append, List.map_singleton]
  nodes := by
    rw [hnodes, List.map_append, h.nodes, spotsFrom_append, List.map_append, h.idFor_eq he]
    rfl
  edges := by
    have hone : ∀ s : Spot, [s].filterMap Spot.edge? = s.edge?.toList := by
      intro s
      cases hedge : s.edge? <;> simp [hedge]
    rw [hedges, h.edges, spotsFrom_append, List.filterMap_append, h.idFor_eq he, spotsFrom,
      spotsFrom, hone]
    rfl

/-- A step for each declaration that is one spot more. -/
lemma Draft.Shows.foldl {α : Type} {step : Draft → α × Nat → Draft} {declare : α → Declaration}
    {xs : List (α × Nat)}
    (hstep : ∀ x ∈ xs, ∀ d ds, d.Shows ds → (step d x).Shows (ds ++ [declare x.1]))
    (h : d.Shows ds) : (xs.foldl step d).Shows (ds ++ xs.map (declare ·.1)) := by
  induction xs generalizing d ds with
  | nil => rwa [List.map_nil, List.append_nil]
  | cons x xs ih =>
    rw [List.forall_mem_cons] at hstep
    rw [List.foldl_cons, List.map_cons, List.append_cons]
    exact ih hstep.2 (hstep.1 d ds h)

section Members

variable (c : Geometry) {agent agentId : String} (hagent : isName agent.toList = true)
  (hid : agentId = (Title.agent agent).id) (y : Float)
include hagent hid

lemma Draft.Shows.addTools (h : d.Shows ds) {ts : List (ToolDecl × Nat)}
    (hts : ∀ t ∈ ts, t.1.agent = agent ∧ isName t.1.name.toList = true) :
    (ts.foldl (fun d t => addTool c agent agentId y d t.1 t.2) d).Shows
      (ds ++ ts.map (.tool ·.1)) := by
  refine h.foldl fun t ht d ds hd => ?_
  obtain ⟨howner, hname⟩ := hts t ht
  have hsound : (Declaration.tool t.1).title.Sound := by
    simp [Declaration.title, Title.Sound, Title.names, howner, hagent, hname]
  subst hid howner
  exact hd.add hsound _ rfl rfl rfl

lemma Draft.Shows.addEvents (h : d.Shows ds) {es : List (EventDecl × Nat)}
    (hes : ∀ e ∈ es, e.1.agent = agent ∧ isName e.1.name.toList = true) :
    (es.foldl (fun d e => addEvent c agent agentId y d e.1 e.2) d).Shows
      (ds ++ es.map (.event ·.1)) := by
  refine h.foldl fun e he d ds hd => ?_
  obtain ⟨howner, hname⟩ := hes e he
  have hsound : (Declaration.event e.1).title.Sound := by
    simp [Declaration.title, Title.Sound, Title.names, howner, hagent, hname]
  subst hid howner
  exact hd.add hsound _ rfl rfl rfl

lemma Draft.Shows.addState (h : d.Shows ds) {state? : Option StateDecl}
    (hstate : ∀ s ∈ state?, s.agent = agent) :
    (addState c agent agentId y d state?).Shows (ds ++ (state?.map .state).toList) := by
  cases state? with
  | none => simpa [Layout.addState] using h
  | some s =>
    have howner := hstate s rfl
    have hsound : (Declaration.state s).title.Sound := by
      simp [Declaration.title, Title.Sound, Title.names, howner, hagent]
    subst hid howner
    exact h.add hsound _ rfl rfl rfl

end Members

end Layout

/-! ## Layouts -/

namespace Outline

/-- An agent and what is placed around it. -/
def star (o : Outline) (a : AgentDecl) : List Declaration :=
  .agent a :: (o.toolsUnder a.name).map .tool ++ (o.eventsUnder a.name).map .event ++
    ((o.stateUnder? a.name).map .state).toList

/-- What a layout places, in its order. -/
def placed (o : Outline) : List Declaration :=
  (Layout.placedAgents o.agents).flatMap o.star ++ o.types.map .type

variable {o : Outline}

/-- Among what is placed around an agent, only the agent itself has the title of an agent. -/
lemma eq_of_title_mem_star {a : AgentDecl} {name : String}
    (h : .agent name ∈ (o.star a).map Declaration.title) : name = a.name := by
  obtain ⟨e, he, htitle⟩ := List.mem_map.1 h
  simp only [star, List.cons_append, List.mem_cons, List.mem_append, List.mem_map,
    Option.mem_toList, Option.map_eq_some_iff] at he
  rcases he with rfl | (⟨t, -, rfl⟩ | ⟨t, -, rfl⟩) | ⟨s, -, rfl⟩
  · exact (Title.agent.inj htitle).symm
  · cases htitle
  · cases htitle
  · cases htitle

open Layout in
/-- An agent that was not placed yet is drawn with all around it. -/
lemma Sound.shows_addAgent (ho : o.Sound) (c : Geometry) {d : Draft} {ds : List Declaration}
    (h : d.Shows ds) {a : AgentDecl} (ha : a ∈ o.agents)
    (hnew : .agent a.name ∉ ds.map Declaration.title) (row : Nat) :
    (addAgent c o d a row).Shows (ds ++ o.star a) := by
  have hname := (ho.agents a ha).isName
  have hsound : (Declaration.agent a).title.Sound := by
    simp [Declaration.title, Title.Sound, Title.names, hname]
  have hid : idFor d.asked ("agent-" ++ a.name) = (Title.agent a.name).id := by
    have hcount : (ds.map Declaration.title).count (.agent a.name) = 0 := List.count_eq_zero.2 hnew
    exact (h.idFor_eq hsound).trans (by rw [Declaration.title, hcount]; rfl)
  have hagent : ∀ position, (d.addNode ("agent-" ++ a.name) position
      (Declaration.agent a).content).Shows (ds ++ [.agent a]) :=
    fun position => h.add hsound position rfl rfl (List.append_nil _).symm
  have htools : ∀ t ∈ (o.toolsUnder a.name).zipIdx,
      t.1.agent = a.name ∧ isName t.1.name.toList = true := by
    intro t ht
    obtain ⟨htool, howner⟩ := List.mem_filter.1 (List.fst_mem_of_mem_zipIdx ht)
    exact ⟨beq_iff_eq.1 howner, (ho.tools t.1 htool).isName⟩
  have hevents : ∀ e ∈ (o.eventsUnder a.name).zipIdx,
      e.1.agent = a.name ∧ isName e.1.name.toList = true := by
    intro e he
    obtain ⟨hevent, howner⟩ := List.mem_filter.1 (List.fst_mem_of_mem_zipIdx he)
    exact ⟨beq_iff_eq.1 howner, (ho.events e.1 hevent).1⟩
  have hstate : ∀ s ∈ o.stateUnder? a.name, s.agent = a.name :=
    fun s hs => beq_iff_eq.1 (List.find?_some (p := fun s : StateDecl => s.agent == a.name) hs)
  let y := heightOf c.agentYStart c.agentYSpacing row
  have hall := (((hagent ⟨c.agentX, y⟩).addTools c hname hid y htools).addEvents c hname hid y
    hevents).addState c hname hid y hstate
  rw [map_zipIdx (o.toolsUnder a.name) Declaration.tool,
    map_zipIdx (o.eventsUnder a.name) Declaration.event] at hall
  rw [star, List.cons_append, List.cons_append, List.append_cons, ← List.append_assoc,
    ← List.append_assoc]
  exact hall

open Layout in
/-- The agents that get a node are drawn one after another, each with all around it. -/
lemma Sound.shows_foldl_addAgent (ho : o.Sound) (c : Geometry) {agents : List (AgentDecl × Nat)}
    (hagents : ∀ a ∈ agents, a.1 ∈ o.agents) (hnodup : (agents.map (·.1.name)).Nodup) {d : Draft}
    {ds : List Declaration} (h : d.Shows ds)
    (hnew : ∀ a ∈ agents, .agent a.1.name ∉ ds.map Declaration.title) :
    (agents.foldl (fun d a => addAgent c o d a.1 a.2) d).Shows
      (ds ++ (agents.map (·.1)).flatMap o.star) := by
  induction agents generalizing d ds with
  | nil => simpa using h
  | cons a agents ih =>
    rw [List.map_cons, List.nodup_cons] at hnodup
    rw [List.forall_mem_cons] at hagents hnew
    rw [List.foldl_cons, List.map_cons, List.flatMap_cons, ← List.append_assoc]
    refine ih hagents.2 hnodup.2 (ho.shows_addAgent c h hagents.1 hnew.1 a.2) fun a' ha' hmem => ?_
    rw [List.map_append, List.mem_append] at hmem
    rcases hmem with hmem | hmem
    · exact hnew.2 a' ha' hmem
    · exact hnodup.1 (eq_of_title_mem_star hmem ▸ List.mem_map_of_mem ha')

open Layout in
lemma Sound.shows_foldl_addType (ho : o.Sound) (c : Geometry) {types : List (TypeDecl × Nat)}
    (htypes : ∀ t ∈ types, t.1 ∈ o.types) {d : Draft} {ds : List Declaration} (h : d.Shows ds) :
    (types.foldl (fun d t => addType c d t.1 t.2) d).Shows (ds ++ types.map (.type ·.1)) := by
  refine h.foldl fun t ht d ds hd => ?_
  have hsound : (Declaration.type t.1).title.Sound := by
    simp [Declaration.title, Title.Sound, Title.names, (ho.types t.1 (htypes t ht)).1]
  exact hd.add hsound _ rfl rfl (List.append_nil _).symm

variable (c : Geometry)

/-- The layout as a list of spots. -/
lemma Sound.shows_layoutOn (h : o.Sound) :
    (∀ e ∈ o.placed, e.title.Sound) ∧
      (layoutOn c o).nodes.map (fun n => (n.id, n.content)) =
        (spotsFrom [] o.placed).map Spot.shown ∧
      (layoutOn c o).edges = (spotsFrom [] o.placed).filterMap Spot.edge? := by
  have hplaced : ∀ a ∈ (Layout.placedAgents o.agents).zipIdx, a.1 ∈ o.agents := fun a ha =>
    (Layout.placedAgents_sublist o.agents).subset (List.fst_mem_of_mem_zipIdx ha)
  have hnodup : ((Layout.placedAgents o.agents).zipIdx.map (·.1.name)).Nodup := by
    rw [Layout.map_zipIdx (Layout.placedAgents o.agents) (·.name)]
    exact Layout.nodup_placedAgents o.agents
  have htypes : ∀ t ∈ o.types.zipIdx, t.1 ∈ o.types := fun t ht => List.fst_mem_of_mem_zipIdx ht
  have hagents := h.shows_foldl_addAgent c hplaced hnodup Layout.Draft.shows_empty
    fun _ _ => List.not_mem_nil
  have hall := h.shows_foldl_addType c htypes hagents
  rw [Layout.map_zipIdx o.types Declaration.type, List.zipIdx_map_fst, List.nil_append] at hall
  exact ⟨hall.sound, hall.nodes, hall.edges⟩

/-- No two nodes of a layout have the same id. -/
lemma Sound.nodup_layout (h : o.Sound) :
    ((layout o).nodes.map (·.id)).Nodup := by
  rw [layout, Layout.layoutOn_eq_draw]
  obtain ⟨stars, loose, hstars, -⟩ :=
    Layout.exists_stars_draw {} h.isNamed_of_mem_sheets h.isName_of_mem_typeStates
  exact hstars.nodup

end Outline

/-! ## What is declared -/

section Firsts

variable {α κ : Type} [DecidableEq κ] {key : α → κ} {k : κ}

/-- The first of every key. -/
def firstsBy (key : α → κ) : List α → List α
  | [] => []
  | x :: xs => x :: (firstsBy key xs).filter (key · ≠ key x)

lemma filter_firstsBy (key : α → κ) (k : κ) (xs : List α) :
    (firstsBy key xs).filter (key · = k) = (xs.find? (key · = k)).toList := by
  induction xs with
  | nil => rfl
  | cons x xs ih =>
    rw [firstsBy]
    by_cases hkey : key x = k
    · have hrest : ((firstsBy key xs).filter (key · ≠ key x)).filter (key · = k) = [] := by
        rw [List.filter_eq_nil_iff]
        intro y hy
        have hne := List.of_mem_filter hy
        simpa [hkey] using hne
      rw [List.filter_cons_of_pos (by simpa using hkey), hrest,
        List.find?_cons_of_pos (by simpa using hkey)]
      rfl
    · have hsame : ((firstsBy key xs).filter (key · ≠ key x)).filter (key · = k) =
          (firstsBy key xs).filter (key · = k) := by
        rw [List.filter_filter]
        apply List.filter_congr
        intro y _
        by_cases hy : key y = k
        · simp [hy, Ne.symm hkey]
        · simp [hy]
      rw [List.filter_cons_of_neg (by simpa using hkey), hsame, ih,
        List.find?_cons_of_neg (by simpa using hkey)]

lemma firstsBy_sublist (key : α → κ) (xs : List α) : (firstsBy key xs).Sublist xs := by
  induction xs with
  | nil => exact .slnil
  | cons x xs ih => exact (List.filter_sublist.trans ih).cons_cons x

lemma placedAgents_eq_firstsBy (as : List AgentDecl) :
    Layout.placedAgents as = firstsBy (·.name) as := by
  induction as with
  | nil => rfl
  | cons a as ih =>
    rw [Layout.placedAgents, firstsBy, ih]
    refine congrArg (a :: ·) (List.filter_congr fun a' _ => ?_)
    rw [decide_not, bne, beq_eq_decide]

end Firsts

namespace Title

/-- The agent that something belongs to. -/
def owner? : Title → Option String
  | .agent name => some name
  | .tool owner _ => some owner
  | .event owner _ => some owner
  | .state owner => some owner
  | .type _ => none

end Title

namespace Outline

/-- The declarations that get a node, kind by kind: of the agents the first of every name, of the
state blocks the first of every agent, and everything else. -/
def declarations (o : Outline) : List Declaration :=
  (firstsBy (·.name) o.agents).map .agent ++ o.tools.map .tool ++ o.events.map .event ++
    (firstsBy (·.agent) o.states).map .state ++ o.types.map .type

/-- The declarations of a title that get a node, in their order. -/
def titled (o : Outline) : Title → List Declaration
  | .agent name => (o.agents.find? (·.name = name)).toList.map .agent
  | .tool owner name => (o.tools.filter fun t => t.agent = owner ∧ t.name = name).map .tool
  | .event owner name => (o.events.filter fun e => e.agent = owner ∧ e.name = name).map .event
  | .state owner => (o.states.find? (·.agent = owner)).toList.map .state
  | .type name => (o.types.filter (·.name = name)).map .type

/-- An outline in which every member belongs to an agent. -/
structure Owned (o : Outline) : Prop where
  tools : ∀ t ∈ o.tools, t.agent ∈ o.agents.map (·.name)
  events : ∀ e ∈ o.events, e.agent ∈ o.agents.map (·.name)
  states : ∀ s ∈ o.states, s.agent ∈ o.agents.map (·.name)

lemma filter_declarations (o : Outline) (t : Title) :
    o.declarations.filter (·.title = t) = o.titled t := by
  cases t <;> simp [declarations, titled, List.filter_map, Function.comp_def, Declaration.title,
    ← filter_firstsBy]

variable {o : Outline} {a : AgentDecl} {t : Title}

lemma owner?_of_mem_star {d : Declaration} (h : d ∈ o.star a) : d.title.owner? = some a.name := by
  simp only [star, List.cons_append, List.mem_cons, List.mem_append, List.mem_map,
    Option.mem_toList, Option.map_eq_some_iff] at h
  rcases h with rfl | (⟨t, ht, rfl⟩ | ⟨e, he, rfl⟩) | ⟨s, hs, rfl⟩
  · rfl
  · exact congrArg some (beq_iff_eq.1 (List.mem_filter.1 ht).2)
  · exact congrArg some (beq_iff_eq.1 (List.mem_filter.1 he).2)
  · have hown := List.find?_some (p := fun s : StateDecl => s.agent == a.name) hs
    exact congrArg some (beq_iff_eq.1 hown)

lemma find?_of_mem_placedAgents (ha : a ∈ Layout.placedAgents o.agents) :
    o.agents.find? (·.name = a.name) = some a := by
  rw [placedAgents_eq_firstsBy] at ha
  have hmem : a ∈ (firstsBy (·.name) o.agents).filter (·.name = a.name) :=
    List.mem_filter.2 ⟨ha, decide_eq_true rfl⟩
  rw [filter_firstsBy, Option.mem_toList] at hmem
  exact hmem

lemma exists_mem_placedAgents {name : String} (h : name ∈ o.agents.map (·.name)) :
    ∃ a ∈ Layout.placedAgents o.agents, a.name = name := by
  obtain ⟨a, ha, hname⟩ := List.mem_map.1 h
  have hsome : (o.agents.find? (·.name = name)).isSome := by
    rw [List.find?_isSome]
    exact ⟨a, ha, decide_eq_true hname⟩
  obtain ⟨first, hfirst⟩ := Option.isSome_iff_exists.1 hsome
  have hmem : first ∈ (firstsBy (·.name) o.agents).filter (·.name = name) := by
    rw [filter_firstsBy, hfirst]
    exact List.mem_singleton_self first
  obtain ⟨hplaced, hsame⟩ := List.mem_filter.1 hmem
  exact ⟨first, placedAgents_eq_firstsBy o.agents ▸ hplaced, of_decide_eq_true hsame⟩

/-- A star holds what belongs to its agent, in the order in which it was recorded. -/
lemma filter_star (ha : a ∈ Layout.placedAgents o.agents) (ht : t.owner? = some a.name) :
    (o.star a).filter (·.title = t) = o.titled t := by
  have hagent := find?_of_mem_placedAgents ha
  have hstate : o.stateUnder? a.name = o.states.find? (·.agent = a.name) := by
    simp only [stateUnder?, beq_eq_decide]
  cases t <;> simp only [Title.owner?, Option.some.injEq, reduceCtorEq] at ht <;> subst ht <;>
    simp only [star, titled, hagent, hstate, toolsUnder, eventsUnder, Option.toList_map,
      ← filter_firstsBy] <;>
    simp [List.filter_map, Function.comp_def, Declaration.title, beq_eq_decide, Bool.and_left_comm,
      Bool.and_comm]

/-- What belongs to an agent without a node does not exist. -/
lemma Owned.titled_eq_nil (h : o.Owned) {name : String} (ht : t.owner? = some name)
    (hname : name ∉ o.agents.map (·.name)) : o.titled t = [] := by
  cases t with
  | agent name =>
    obtain rfl := Option.some.inj ht
    have hfind : o.agents.find? (·.name = name) = none := by
      rw [List.find?_eq_none]
      intro a ha
      rw [decide_eq_true_eq]
      exact fun hsame => hname (hsame ▸ List.mem_map_of_mem ha)
    rw [titled, hfind]
    rfl
  | tool owner name =>
    obtain rfl := Option.some.inj ht
    rw [titled, List.map_eq_nil_iff, List.filter_eq_nil_iff]
    intro t ht
    rw [decide_eq_true_eq]
    exact fun hsame => hname (hsame.1 ▸ h.tools t ht)
  | event owner name =>
    obtain rfl := Option.some.inj ht
    rw [titled, List.map_eq_nil_iff, List.filter_eq_nil_iff]
    intro e he
    rw [decide_eq_true_eq]
    exact fun hsame => hname (hsame.1 ▸ h.events e he)
  | state owner =>
    obtain rfl := Option.some.inj ht
    have hfind : o.states.find? (·.agent = owner) = none := by
      rw [List.find?_eq_none]
      intro s hs
      rw [decide_eq_true_eq]
      exact fun hsame => hname (hsame ▸ h.states s hs)
    rw [titled, hfind]
    rfl
  | type name => cases ht

/-- What is placed under a title is what was recorded under it, in the same order. -/
theorem Owned.filter_placed (h : o.Owned) (t : Title) :
    o.placed.filter (·.title = t) = o.titled t := by
  rw [placed, List.filter_append]
  cases howner : t.owner? with
  | none =>
    have hstars : ((Layout.placedAgents o.agents).flatMap o.star).filter (·.title = t) = [] := by
      rw [List.filter_eq_nil_iff]
      intro d hd
      obtain ⟨a, -, hd⟩ := List.mem_flatMap.1 hd
      rw [decide_eq_true_eq]
      rintro rfl
      rw [owner?_of_mem_star hd] at howner
      cases howner
    rw [hstars, List.nil_append]
    cases t with
    | type name => simp [titled, List.filter_map, Function.comp_def, Declaration.title]
    | _ => cases howner
  | some name =>
    have htypes : (o.types.map Declaration.type).filter (·.title = t) = [] := by
      rw [List.filter_eq_nil_iff]
      intro d hd
      obtain ⟨t', -, rfl⟩ := List.mem_map.1 hd
      rw [decide_eq_true_eq]
      rintro rfl
      cases howner
    have howned : ∀ ds : List Declaration, ds.filter (·.title = t) =
        (ds.filter (·.title.owner? == some name)).filter (·.title = t) := by
      intro ds
      rw [List.filter_filter]
      apply List.filter_congr
      intro d _
      by_cases hd : d.title = t
      · rw [hd, howner, beq_self_eq_true, Bool.and_true]
      · rw [decide_eq_false hd, Bool.false_and]
    rw [htypes, List.append_nil]
    by_cases hname : name ∈ o.agents.map (·.name)
    · obtain ⟨a, ha, rfl⟩ := exists_mem_placedAgents hname
      have hkeys : ((Layout.placedAgents o.agents).map fun a => some a.name).Nodup := by
        have hnames := (Layout.nodup_placedAgents o.agents).map (Option.some_injective String)
        rwa [List.map_map] at hnames
      rw [howned, filter_flatMap_key hkeys (fun a _ d hd => owner?_of_mem_star hd) ha]
      exact filter_star ha howner
    · rw [h.titled_eq_nil howner hname, List.filter_eq_nil_iff]
      intro d hd
      obtain ⟨a, ha, hd⟩ := List.mem_flatMap.1 hd
      rw [decide_eq_true_eq]
      rintro rfl
      rw [owner?_of_mem_star hd] at howner
      obtain rfl := Option.some.inj howner
      exact hname (List.mem_map_of_mem ((Layout.placedAgents_sublist o.agents).subset ha))

/-- Up to order, what is placed is what was recorded. -/
theorem Owned.perm_placed (h : o.Owned) : o.placed.Perm o.declarations := by
  rw [List.perm_iff_count]
  intro d
  have hcount : ∀ ds : List Declaration, (ds.filter (·.title = d.title)).count d = ds.count d :=
    fun ds => List.count_filter (decide_eq_true rfl)
  rw [← hcount, h.filter_placed, ← filter_declarations, hcount]

end Outline

/-- In what was read from a text, every member belongs to an agent. -/
lemma owned_outline (text : String) : (outline text).Owned := by
  have howned := owned_reading text
  constructor
  · intro t ht
    apply howned
    simp only [Reading.owners, List.mem_append]
    exact .inl (.inl (.inl (.inl (List.mem_map_of_mem ht))))
  · intro e he
    apply howned
    simp only [Reading.owners, List.mem_append]
    exact .inl (.inl (.inl (.inr (List.mem_map_of_mem he))))
  · intro s hs
    apply howned
    simp only [Reading.owners, List.mem_append]
    exact .inl (.inl (.inr (List.mem_map_of_mem hs)))

end AgentScript
