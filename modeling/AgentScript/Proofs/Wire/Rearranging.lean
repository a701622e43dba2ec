import AgentScript.Proofs.Wire.Assemblies
import AgentScript.Proofs.Wire.ReadBack

/-!
# Graph documents rearranged

A graph does not depend on the order of keys in its document, nor on keys that nobody declared
(`readGraph_of_rearranged`).  This is said of the tree that the document spells.  Every object that
is a record may be rearranged: the graph, its nodes, their positions and data, and its edges.

All of these but one are read member by member, so rearranging the members leaves the record as it
was.  The data of a node is read as a plain value first, because `type` may come after it, and what
was added stays in that value until the kind of the node is known.  So a node whose data was
rearranged is not the same before its data is decoded; it is related to what it was (`SameNode`).
The keys of the data must not be repeated, since of two members with one key a plain value has only
the last.
-/

namespace AgentScript.Wire

open AgentScript.Json

/-! ## What may be rearranged -/

/-- An object whose members may be rearranged, or anything at all that stays as it is. -/
inductive RecordRearranged (declared : List String) (keep : String → Draft → Draft → Prop) :
    Draft → Draft → Prop where
  | same (d : Draft) : RecordRearranged declared keep d d
  | members {ms ms' : List (StringText × Draft)} (h : Rearranges declared keep ms ms') :
    RecordRearranged declared keep (.object ms .closed) (.object ms' .closed)

/-- An array whose items may be rearranged. -/
inductive ListRearranged (keep : Draft → Draft → Prop) : Draft → Draft → Prop where
  | items {ds ds' : List Draft} (h : List.Forall₂ keep ds ds') :
    ListRearranged keep (.array ds .closed) (.array ds' .closed)

def PositionRearranged : Draft → Draft → Prop := RecordRearranged ["x", "y"] fun _ => Eq

def EdgeRearranged : Draft → Draft → Prop :=
  RecordRearranged ["id", "source", "target", "sourceHandle", "targetHandle"] fun _ => Eq

/-- The keys that the data of a node of the given kind declares. -/
def contentKeys : String → List String
  | "agent" => ["label", "description", "version", "model", "provider"]
  | "tool" => ["label", "params", "returns", "description"]
  | "event" => ["label", "eventType"]
  | "state" => ["label", "fields"]
  | _ => []

/-- The data of a node of the given kind. -/
inductive ContentRearranged (kind : String) : Draft → Draft → Prop where
  | same (d : Draft) : ContentRearranged kind d d
  | members {ms ms' : List (StringText × Draft)} (hkeys : NoRepeats ms)
    (h : Rearranges (contentKeys kind) (fun _ => Eq) ms ms') :
    ContentRearranged kind (.object ms .closed) (.object ms' .closed)

/-- What may happen to the value of a member of a node of the given kind. -/
def nodeKeep (kind : String) : String → Draft → Draft → Prop
  | "position" => PositionRearranged
  | "data" => ContentRearranged kind
  | _ => Eq

/-- A node, whose kind decides which keys its data declares. -/
inductive NodeRearranged : Draft → Draft → Prop where
  | same (d : Draft) : NodeRearranged d d
  | members {ms ms' : List (StringText × Draft)} {m : StringText × Draft} {kind : String}
    (hmem : m ∈ ms) (hkey : m.1.value = .ok "type") (hkind : decodeString m.2 = .ok kind)
    (h : Rearranges ["id", "type", "position", "data"] (nodeKeep kind) ms ms') :
    NodeRearranged (.object ms .closed) (.object ms' .closed)

/-- What may happen to the value of a member of a graph. -/
def graphKeep : String → Draft → Draft → Prop
  | "nodes" => ListRearranged NodeRearranged
  | "edges" => ListRearranged EdgeRearranged
  | _ => Eq

def GraphRearranged : Draft → Draft → Prop := RecordRearranged ["nodes", "edges"] graphKeep

/-! ## Positions and edges -/

/-- What may stand for a draft is decoded to the same. -/
def Respects {α : Type} (decode : Draft → Decoded α) (keep : Draft → Draft → Prop) : Prop :=
  ∀ d d' a, keep d d' → decode d = .ok a → decode d' = .ok a

lemma respects_decodeRecord {ρ : Type} {shape : RecordShape Draft ρ} (A : Assembly shape)
    {keep : String → Draft → Draft → Prop} (hcarries : A.Carries Eq keep) :
    Respects (decodeRecord shape) (RecordRearranged A.keys keep) := by
  intro d d' r h hr
  cases h with
  | same => exact hr
  | members h =>
    rw [decodeRecord_object (Draft.view_object _ _)] at hr ⊢
    exact A.ofMembers_eq_of_rearranges hcarries h hr

lemma respects_decodePosition : Respects decodePosition PositionRearranged :=
  respects_decodeRecord positionAssembly positionAssembly.carries_eq

lemma respects_decodeEdge : Respects decodeEdge EdgeRearranged :=
  respects_decodeRecord edgeAssembly edgeAssembly.carries_eq

/-! ## Data -/

/-- Plain values that are decoded to the same data of a node of the given kind. -/
def SameContent (kind : String) (v v' : Value) : Prop :=
  ∀ c, decodeContent? kind v = some (.ok c) → decodeContent? kind v' = some (.ok c)

section Content

variable {ms ms' added : List (String × Value)}

lemma map_decodeRecord_arrange {ρ : Type} {shape : RecordShape Value ρ} (A : Assembly shape)
    (f : ρ → Content) (hkeys : (ms.map (·.1)).Nodup) (hadded : ∀ m ∈ added, m.1 ∉ A.keys)
    (hperm : ms'.Perm (ms ++ added)) {c : Content}
    (h : f <$> decodeRecord shape (.object (arrange ms)) = .ok c) :
    f <$> decodeRecord shape (.object (arrange ms')) = .ok c := by
  obtain ⟨r, hr, rfl⟩ := exists_of_map_eq_ok h
  rw [decodeRecord_value] at hr ⊢
  rw [A.ofMembers_arrange hkeys hadded hperm hr, map_ok]

/-- Data is the same after the members of its plain value are rearranged. -/
lemma sameContent_arrange {kind : String} (hkeys : (ms.map (·.1)).Nodup)
    (hadded : ∀ m ∈ added, m.1 ∉ contentKeys kind) (hperm : ms'.Perm (ms ++ added)) :
    SameContent kind (.object (arrange ms)) (.object (arrange ms')) := by
  intro c hc
  unfold decodeContent? at hc ⊢
  split at hc
  · exact congrArg some
      (map_decodeRecord_arrange agentAssembly .agent hkeys hadded hperm (Option.some.inj hc))
  · exact congrArg some
      (map_decodeRecord_arrange toolAssembly .tool hkeys hadded hperm (Option.some.inj hc))
  · exact congrArg some
      (map_decodeRecord_arrange eventAssembly .event hkeys hadded hperm (Option.some.inj hc))
  · exact congrArg some
      (map_decodeRecord_arrange stateAssembly .state hkeys hadded hperm (Option.some.inj hc))
  · cases hc

end Content

lemma decodePlain_object {ms : List (StringText × Draft)} {v : Value} :
    decodePlain (.object ms .closed) = .ok v ↔
      ∃ vs, List.Forall₂ (ReadAs 123) ms vs ∧ v = .object (arrange vs) := by
  have hdepth : depthLimit - 3 = 123 + 1 := rfl
  rw [decodePlain, ofFault_eq_ok, hdepth, Draft.toValue]
  constructor
  · intro h
    obtain ⟨vs, hvs, h⟩ := exists_of_bind_eq_ok h
    exact ⟨vs, toMembers_eq_ok.1 hvs, (Except.ok.inj h).symm⟩
  · rintro ⟨vs, hvs, rfl⟩
    rw [toMembers_eq_ok.2 hvs]
    rfl

lemma decodePlain_of_rearranged {kind : String} {d d' : Draft} (h : ContentRearranged kind d d')
    {v : Value} (hv : decodePlain d = .ok v) :
    ∃ v', decodePlain d' = .ok v' ∧ SameContent kind v v' := by
  cases h with
  | same => exact ⟨v, hv, fun _ hc => hc⟩
  | members hkeys h =>
    obtain ⟨vs, hread, rfl⟩ := decodePlain_object.1 hv
    obtain ⟨added, vs', hread', hperm, hadded⟩ := exists_readAs_of_rearranges (by decide) h hread
    exact ⟨_, decodePlain_object.2 ⟨vs', hread', rfl⟩,
      sameContent_arrange (nodup_of_noRepeats hkeys hread) hadded hperm⟩

/-! ## Nodes -/

/-- Nodes that differ in what was added to their data, which is that of the given kind. -/
structure SameNode (k : String) (n n' : PartialNode) : Prop where
  id : n'.id = n.id
  kind : n'.kind = n.kind
  position : n'.position = n.position
  data : Option.Rel (SameContent k) n.data n'.data

section Nodes

variable {k : String} {n n' : PartialNode}

lemma sameNode_empty : SameNode k {} {} := ⟨rfl, rfl, rfl, .none⟩

lemma SameNode.data_eq_none (h : SameNode k n n') (hn : n.data = none) : n'.data = none := by
  have hdata := h.data
  rw [hn] at hdata
  cases hn' : n'.data with
  | none => rfl
  | some v => rw [hn'] at hdata; cases hdata

/-- Where there is no data, `null` stands for it. -/
lemma SameNode.data_getD (h : SameNode k n n') :
    SameContent k (n.data.getD .null) (n'.data.getD .null) := by
  obtain ⟨_, _, _, hdata⟩ := h
  cases hn : n.data with
  | none =>
    rw [hn] at hdata
    cases hn' : n'.data with
    | none => exact fun _ hc => hc
    | some v' => rw [hn'] at hdata; cases hdata
  | some v =>
    rw [hn] at hdata
    cases hn' : n'.data with
    | none => rw [hn'] at hdata; cases hdata
    | some v' =>
      rw [hn'] at hdata
      cases hdata with
      | some hsame => exact hsame

/-- Members are exchanged for members that mean the same. -/
lemma nodeAssembly_carries (k : String) : nodeAssembly.Carries (SameNode k) (nodeKeep k) := by
  intro key d d' hkeep p q p₁ hpq hp₁
  unfold nodeKeep at hkeep
  split at hkeep
  next =>
    obtain ⟨hnone, a, ha, rfl⟩ := (setFields_declared rfl).1 hp₁
    have ha' := respects_decodePosition d d' a hkeep ha
    exact ⟨_, (setFields_declared rfl).2 ⟨hpq.position.trans hnone, a, ha', rfl⟩,
      ⟨hpq.id, hpq.kind, rfl, hpq.data⟩⟩
  next =>
    obtain ⟨hnone, v, hv, rfl⟩ := (setFields_declared rfl).1 hp₁
    obtain ⟨v', hv', hsame⟩ := decodePlain_of_rearranged hkeep hv
    exact ⟨_, (setFields_declared rfl).2 ⟨hpq.data_eq_none hnone, v', hv', rfl⟩,
      ⟨hpq.id, hpq.kind, hpq.position, .some hsame⟩⟩
  next hposition hdata =>
    -- the value is the same; what it fills is told apart from what is passed over
    subst hkeep
    by_cases hid : key = "id"
    · subst hid
      obtain ⟨hnone, a, ha, rfl⟩ := (setFields_declared rfl).1 hp₁
      exact ⟨_, (setFields_declared rfl).2 ⟨hpq.id.trans hnone, a, ha, rfl⟩,
        ⟨rfl, hpq.kind, hpq.position, hpq.data⟩⟩
    by_cases htype : key = "type"
    · subst htype
      obtain ⟨hnone, a, ha, rfl⟩ := (setFields_declared rfl).1 hp₁
      exact ⟨_, (setFields_declared rfl).2 ⟨hpq.kind.trans hnone, a, ha, rfl⟩,
        ⟨hpq.id, rfl, hpq.position, hpq.data⟩⟩
    have hkey : key ∉ nodeAssembly.keys := by
      change key ∉ ["id", "type", "position", "data"]
      simp only [List.mem_cons, List.not_mem_nil, or_false, not_or]
      exact ⟨hid, htype, hposition, hdata⟩
    rw [nodeAssembly.setFields_of_not_mem hkey] at hp₁
    obtain ⟨hskip, rfl⟩ := passOver_eq_ok.1 hp₁
    refine ⟨q, ?_, hpq⟩
    rw [nodeAssembly.setFields_of_not_mem hkey]
    exact passOver_eq_ok.2 ⟨hskip, rfl⟩

/-- Raw nodes that differ in what was added to their data. -/
structure SameRawNode (k : String) (raw raw' : RawNode) : Prop where
  id : raw'.id = raw.id
  kind : raw'.kind = raw.kind
  position : raw'.position = raw.position
  data : SameContent k raw.data raw'.data

lemma nodeAssembly_finish_eq_ok {raw : RawNode} : nodeAssembly.finish n = .ok raw ↔
    ∃ id kind, n.id = some id ∧ n.kind = some kind ∧
      raw = ⟨id, kind, n.position.getD origin, n.data.getD .null⟩ := by
  constructor
  · intro h
    obtain ⟨id, hid, h⟩ := exists_of_bind_eq_ok h
    obtain ⟨kind, hkind, h⟩ := exists_of_bind_eq_ok h
    exact ⟨id, kind, eq_of_require hid, eq_of_require hkind, (Except.ok.inj h).symm⟩
  · rintro ⟨id, kind, hid, hkind, rfl⟩
    change (do return ⟨← require "id" n.id, ← require "type" n.kind, n.position.getD origin,
      n.data.getD .null⟩ : Decoded RawNode) = _
    rw [hid, hkind]
    rfl

lemma finish_of_sameNode (h : SameNode k n n') {raw : RawNode}
    (hraw : nodeAssembly.finish n = .ok raw) :
    ∃ raw', nodeAssembly.finish n' = .ok raw' ∧ SameRawNode k raw raw' := by
  obtain ⟨id, kind, hid, hkind, rfl⟩ := nodeAssembly_finish_eq_ok.1 hraw
  refine ⟨_, nodeAssembly_finish_eq_ok.2 ⟨id, kind, h.id.trans hid, h.kind.trans hkind, rfl⟩, ?_⟩
  exact ⟨rfl, rfl, congrArg (·.getD origin) h.position, h.data_getD⟩

/-- The kind of a node is what its member `type` says. -/
lemma kind_of_ofMembers {ms : List (StringText × Draft)} {m : StringText × Draft} (hmem : m ∈ ms)
    (hkey : m.1.value = .ok "type") (hkind : decodeString m.2 = .ok k) {ending : Ending}
    {raw : RawNode} (h : nodeShape.ofMembers (Draft.keyed ms) ending = .ok raw) : raw.kind = k := by
  obtain ⟨p, hp, hraw⟩ := nodeAssembly.ofMembers_eq_ok.1 h
  obtain ⟨id, kind, -, hkind', rfl⟩ := nodeAssembly_finish_eq_ok.1 hraw
  have hkeyed : (.ok "type", m.2) ∈ Draft.keyed ms :=
    List.mem_map.2 ⟨m, hmem, Prod.ext hkey rfl⟩
  have hfilled := get_of_foldMembers nodeAssembly.independent rfl hkind hkeyed hp
  exact Option.some.inj (hkind'.symm.trans hfilled)

lemma resolve_eq_ok {raw : RawNode} {n : Node} : raw.resolve = .ok n ↔
    ∃ c, decodeContent? raw.kind raw.data = some (.ok c) ∧ n = ⟨raw.id, raw.position, c⟩ := by
  rw [RawNode.resolve]
  constructor
  · intro h
    split at h
    · cases h
    next c hc => exact ⟨c, hc, (Except.ok.inj h).symm⟩
    · cases h
    · cases h
  · rintro ⟨c, hc, rfl⟩
    rw [hc]

lemma resolve_of_sameRawNode {raw raw' : RawNode} (h : SameRawNode raw.kind raw raw') {n : Node}
    (hn : raw.resolve = .ok n) : raw'.resolve = .ok n := by
  obtain ⟨c, hc, rfl⟩ := resolve_eq_ok.1 hn
  rw [resolve_eq_ok, h.id, h.kind, h.position]
  exact ⟨c, h.data c hc, rfl⟩

end Nodes

lemma respects_decodeNode : Respects decodeNode NodeRearranged := by
  intro d d' n h hn
  cases h with
  | same => exact hn
  | members hmem hkey hkind h =>
    obtain ⟨raw, hraw, hn⟩ := exists_of_bind_eq_ok hn
    rw [decodeRecord_object (Draft.view_object _ _)] at hraw
    obtain rfl := kind_of_ofMembers hmem hkey hkind hraw
    obtain ⟨raw', hraw', hsame⟩ := nodeAssembly.ofMembers_rearranges (S := SameRawNode raw.kind)
      (nodeAssembly_carries raw.kind) sameNode_empty
      (fun _ _ _ hsame hfinish => finish_of_sameNode hsame hfinish) h hraw
    rw [decodeNode, decodeRecord_object (Draft.view_object _ _), hraw', ok_bind]
    exact resolve_of_sameRawNode hsame hn

/-! ## Graphs -/

lemma decodeItems_of_forall₂ {α : Type} {decode : Draft → Decoded α} {keep : Draft → Draft → Prop}
    (hkeep : Respects decode keep) {ds ds' : List Draft} (h : List.Forall₂ keep ds ds')
    {as : List α} (has : decodeItems decode ds = .ok as) : decodeItems decode ds' = .ok as := by
  induction h generalizing as with
  | nil => exact has
  | cons hd _ ih =>
    obtain ⟨a, ha, has⟩ := exists_of_bind_eq_ok has
    obtain ⟨rest, hrest, has⟩ := exists_of_bind_eq_ok has
    rw [decodeItems, hkeep _ _ a hd ha, ok_bind, ih hrest]
    exact has

lemma respects_decodeList {α : Type} {decode : Draft → Decoded α} {keep : Draft → Draft → Prop}
    (hkeep : Respects decode keep) : Respects (decodeList decode) (ListRearranged keep) := by
  intro d d' as h has
  cases h with
  | @items ds ds' h =>
    change (decodeItems decode ds >>= _) = _ at has
    change (decodeItems decode ds' >>= _) = _
    obtain ⟨list, hlist, has⟩ := exists_of_bind_eq_ok has
    rw [decodeItems_of_forall₂ hkeep h hlist]
    exact has

lemma graphAssembly_carries : graphAssembly.Carries Eq graphKeep := by
  intro key d d' hkeep p q p₁ hpq hp₁
  subst hpq
  unfold graphKeep at hkeep
  split at hkeep
  · obtain ⟨hnone, ns, hns, rfl⟩ := (setFields_declared rfl).1 hp₁
    have hns' := respects_decodeList respects_decodeNode d d' ns hkeep hns
    exact ⟨_, (setFields_declared rfl).2 ⟨hnone, ns, hns', rfl⟩, rfl⟩
  · obtain ⟨hnone, es, hes, rfl⟩ := (setFields_declared rfl).1 hp₁
    have hes' := respects_decodeList respects_decodeEdge d d' es hkeep hes
    exact ⟨_, (setFields_declared rfl).2 ⟨hnone, es, hes', rfl⟩, rfl⟩
  · subst hkeep
    exact ⟨p₁, hp₁, rfl⟩

/-- **A graph does not depend on the order of keys in its document, nor on keys that nobody
declared.** -/
theorem readGraph_of_rearranged {document : String} {g : Graph} (h : readGraph document = .ok g) :
    ∃ d, Spells document.toList d ∧ ∀ d' document', GraphRearranged d d' →
      Spells document'.toList d' → readGraph document' = .ok g := by
  obtain ⟨d, hspells, hd⟩ := readGraph_eq_ok.1 h
  refine ⟨d, hspells, fun d' document' hrearranged hspells' => ?_⟩
  have hd' := respects_decodeRecord graphAssembly graphAssembly_carries d d' g hrearranged hd
  exact readGraph_eq_ok.2 ⟨d', hspells', hd'⟩

/-! ## A document and the same rearranged -/

/-- A document with one record of each sort. -/
def tidyDocument : String :=
  "\x7b\"nodes\": [\x7b\"id\": \"a\", \"type\": \"agent\", " ++
    "\"position\": \x7b\"x\": 1, \"y\": 2\x7d, \"data\": \x7b\"label\": \"A\"\x7d\x7d], " ++
    "\"edges\": [\x7b\"id\": \"e\", \"source\": \"a\", \"target\": \"a\"\x7d]\x7d"

/-- The keys of each record from the last to the first, after one that nobody declared. -/
def shuffledDocument : String :=
  "\x7b\"version\": [null], \"edges\": [\x7b\"animated\": true, \"target\": \"a\", " ++
    "\"source\": \"a\", \"id\": \"e\"\x7d], \"nodes\": [\x7b\"selected\": false, " ++
    "\"data\": \x7b\"tags\": \x7b\"t\": []\x7d, \"label\": \"A\"\x7d, " ++
    "\"position\": \x7b\"z\": \"0\", \"y\": 2, \"x\": 1\x7d, \"type\": \"agent\", " ++
    "\"id\": \"a\"\x7d]\x7d"

/-- The graph of both. -/
def loopGraph : Graph where
  nodes := [⟨"a", ⟨1, 2⟩, .agent ⟨"A", none, none, none, none⟩⟩]
  edges := [⟨"e", "a", "a", none, none⟩]

namespace Shuffled

def member (key : String) (d : Draft) : StringText × Draft := (printedText key, d)

def word (s : String) : Draft := .string (printedText s)

def digit (n : Nat) : Draft := .number ⟨false, [n], [], none⟩

/-- Members in the other order, after another one. -/
def shuffle (kept : List (StringText × Draft)) (key : String) (d : Draft) : Draft :=
  .object (kept ++ [member key d]).reverse .closed

def position : List (StringText × Draft) := [member "x" (digit 1), member "y" (digit 2)]

def position' : Draft := shuffle position "z" (word "0")

def data : List (StringText × Draft) := [member "label" (word "A")]

def data' : Draft := shuffle data "tags" (.object [member "t" (.array [] .closed)] .closed)

def node (position data : Draft) : List (StringText × Draft) :=
  [member "id" (word "a"), member "type" (word "agent"), member "position" position,
    member "data" data]

def node' : Draft := shuffle (node position' data') "selected" (.bool false)

def edge : List (StringText × Draft) :=
  [member "id" (word "e"), member "source" (word "a"), member "target" (word "a")]

def edge' : Draft := shuffle edge "animated" (.bool true)

def graph (node edge : Draft) : List (StringText × Draft) :=
  [member "nodes" (.array [node] .closed), member "edges" (.array [edge] .closed)]

/-- What the tidy document spells. -/
def tree : Draft :=
  .object (graph (.object (node (.object position .closed) (.object data .closed)) .closed)
    (.object edge .closed)) .closed

/-- What the other document spells. -/
def tree' : Draft := shuffle (graph node' edge') "version" (.array [.null] .closed)

lemma kept_member {keep : String → Draft → Draft → Prop} {key : String} {d d' : Draft}
    (h : keep key d d') : Kept keep (member key d) (member key d') :=
  ⟨rfl, key, value_printedText key, h⟩

lemma rearranges_shuffle {declared : List String} {keep : String → Draft → Draft → Prop}
    {ms kept : List (StringText × Draft)} (hkept : List.Forall₂ (Kept keep) ms kept) {key : String}
    {d : Draft} (hkey : key ∉ declared) (hd : Plain d) :
    Rearranges declared keep ms (kept ++ [member key d]).reverse :=
  ⟨kept, [member key d], hkept,
    List.forall_mem_singleton.2 ⟨⟨key, value_printedText key, hkey⟩, hd⟩, List.reverse_perm _⟩

lemma position_rearranged : PositionRearranged (.object position .closed) position' :=
  .members (rearranges_shuffle (.cons (kept_member rfl) (.cons (kept_member rfl) .nil)) (by decide)
    (by decide +kernel))

lemma data_rearranged : ContentRearranged "agent" (.object data .closed) data' :=
  .members (by simp [NoRepeats, data, member, value_printedText])
    (rearranges_shuffle (.cons (kept_member rfl) .nil) (by decide) (by decide +kernel))

lemma node_rearranged : NodeRearranged
    (.object (node (.object position .closed) (.object data .closed)) .closed) node' :=
  have hkept : List.Forall₂ (Kept (nodeKeep "agent"))
      (node (.object position .closed) (.object data .closed)) (node position' data') :=
    .cons (kept_member rfl) (.cons (kept_member rfl) (.cons (kept_member position_rearranged)
      (.cons (kept_member data_rearranged) .nil)))
  have htype : member "type" (word "agent") ∈
      node (.object position .closed) (.object data .closed) := by simp [node]
  .members htype (value_printedText "type") (decodeString_draft "agent")
    (rearranges_shuffle hkept (by decide) (by decide +kernel))

lemma edge_rearranged : EdgeRearranged (.object edge .closed) edge' :=
  .members (rearranges_shuffle
    (.cons (kept_member rfl) (.cons (kept_member rfl) (.cons (kept_member rfl) .nil))) (by decide)
    (by decide +kernel))

lemma tree_rearranged : GraphRearranged tree tree' :=
  have hnodes := ListRearranged.items (.cons node_rearranged .nil)
  have hedges := ListRearranged.items (.cons edge_rearranged .nil)
  .members (rearranges_shuffle (.cons (kept_member hnodes) (.cons (kept_member hedges) .nil))
    (by decide) (by decide +kernel))

end Shuffled

theorem readGraph_of_rearranged_shuffledDocument :
    readGraph tidyDocument = .ok loopGraph ∧ GraphRearranged Shuffled.tree Shuffled.tree' ∧
      Spells tidyDocument.toList Shuffled.tree ∧ Spells shuffledDocument.toList Shuffled.tree' ∧
        readGraph shuffledDocument = .ok loopGraph := by
  have htidy : Spells tidyDocument.toList Shuffled.tree := by decide +kernel
  have hdecode : decodeRecord graphShape Shuffled.tree = .ok loopGraph := by decide +kernel
  have hread : readGraph tidyDocument = .ok loopGraph :=
    readGraph_eq_ok.2 ⟨Shuffled.tree, htidy, hdecode⟩
  have hshuffled : Spells shuffledDocument.toList Shuffled.tree' := by decide +kernel
  obtain ⟨d, hd, hall⟩ := readGraph_of_rearranged hread
  obtain rfl := hd.unique htidy
  exact ⟨hread, Shuffled.tree_rearranged, htidy, hshuffled,
    hall _ shuffledDocument Shuffled.tree_rearranged hshuffled⟩

end AgentScript.Wire
