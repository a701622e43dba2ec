import AgentScript.Proofs.Json.Fields
import AgentScript.Proofs.Json.Finite
import AgentScript.Proofs.Wire.GraphDocuments

/-!
# Positions that were read are finite

A document may say what it likes: a graph that is read from it has finite coordinates
(`isFinite_of_readGraph`).  The coordinates of a node come from numbers of the document, wherever
they stand and whether the records around them are objects or arrays, or they are zero; so the
argument follows what was decoded back to what it was decoded from.
-/

namespace AgentScript

open AgentScript.Json

/-- Both coordinates are finite. -/
def Position.IsFinite (p : Position) : Prop := p.x.isFinite = true ∧ p.y.isFinite = true

namespace Wire

variable {σ ρ α : Type}

/-! ## What was decoded from what -/

lemma decoded_of_fill {name : String} {field o : Option α} {decode : σ → Decoded α} {s : σ}
    (h : fill name field decode s = .ok o) : ∃ a, decode s = .ok a ∧ o = some a :=
  (fill_eq_ok.1 h).2

lemma eq_of_passOver [Source σ] {r r' : ρ} {s : σ} (h : passOver r s = .ok r') : r' = r :=
  (passOver_eq_ok.1 h).2

lemma eq_of_require {name : String} {o : Option α} {a : α} (h : require name o = .ok a) :
    o = some a := by
  cases o with
  | none => cases h
  | some b => cases h; rfl

lemma decoded_of_decodeItems {decode : σ → Decoded α} {ss : List σ} {as : List α}
    (h : decodeItems decode ss = .ok as) : ∀ a ∈ as, ∃ s, decode s = .ok a := by
  induction ss generalizing as with
  | nil =>
    obtain rfl := Except.ok.inj h
    exact nofun
  | cons s ss ih =>
    obtain ⟨a, ha, h⟩ := exists_of_bind_eq_ok h
    obtain ⟨rest, hrest, h⟩ := exists_of_bind_eq_ok h
    obtain rfl := Except.ok.inj h
    exact List.forall_mem_cons.2 ⟨⟨s, ha⟩, ih hrest⟩

lemma decoded_of_decodeList [Source σ] {decode : σ → Decoded α} {s : σ} {as : List α}
    (h : decodeList decode s = .ok as) : ∀ a ∈ as, ∃ s, decode s = .ok a := by
  obtain ⟨v, -, h⟩ := exists_of_bind_eq_ok h
  split at h
  · obtain ⟨list, hlist, h⟩ := exists_of_bind_eq_ok h
    obtain ⟨-, -, h⟩ := exists_of_bind_eq_ok h
    obtain rfl := Except.ok.inj h
    exact decoded_of_decodeItems hlist
  · cases h

/-- The two ways in which a record is read. -/
lemma decoded_of_decodeRecord [Source σ] {shape : RecordShape σ ρ} {s : σ} {r : ρ}
    (h : decodeRecord shape s = .ok r) :
    (∃ ms ending, shape.ofMembers ms ending = .ok r) ∨
      ∃ items rest, shape.ofItems.run items = .ok (r, rest) := by
  obtain ⟨v, -, h⟩ := exists_of_bind_eq_ok h
  split at h
  · exact .inl ⟨_, _, h⟩
  · obtain ⟨⟨a, rest⟩, ha, h⟩ := exists_of_bind_eq_ok h
    obtain ⟨-, -, h⟩ := exists_of_bind_eq_ok h
    obtain rfl := Except.ok.inj h
    exact .inr ⟨_, _, ha⟩
  · cases h

lemma exists_of_run_bind_eq_ok {ε τ β : Type} {x : StateT τ (Except ε) α}
    {f : α → StateT τ (Except ε) β} {t : τ} {r : β × τ} (h : (x >>= f).run t = .ok r) :
    ∃ a t', x.run t = .ok (a, t') ∧ (f a).run t' = .ok r := by
  obtain ⟨⟨a, t'⟩, ha, h⟩ := exists_of_bind_eq_ok h
  exact ⟨a, t', ha, h⟩

lemma decoded_of_nextField {absent : Option α} {decode : σ → Decoded α} {items rest : Items σ}
    {a : α} (h : (nextField absent decode).run items = .ok (a, rest)) :
    (∃ s, decode s = .ok a) ∨ absent = some a := by
  change nextField absent decode items = .ok (a, rest) at h
  rw [nextField.eq_def] at h
  split at h
  next s _ _ =>
    obtain ⟨b, hb, h⟩ := exists_of_bind_eq_ok h
    cases h
    exact .inl ⟨s, hb⟩
  next =>
    obtain ⟨-, -, h⟩ := exists_of_bind_eq_ok h
    cases h
    exact .inr rfl
  next =>
    obtain ⟨-, -, h⟩ := exists_of_bind_eq_ok h
    cases h

/-! ## Positions -/

lemma isFinite_of_decodeFloat {d : Draft} {x : Float} (h : decodeFloat d = .ok x) :
    x.isFinite = true := by
  cases d with
  | number t =>
    rw [decodeFloat, look, Source.view] at h
    dsimp only [instSourceDraft] at h
    cases ht : t.value with
    | error e => rw [ht] at h; cases h
    | ok n => rw [ht] at h; cases h; exact isFinite_toFloat_of_value ht
  | string t =>
    rw [decodeFloat, look, Source.view] at h
    dsimp only [instSourceDraft] at h
    cases ht : t.value with
    | error e => rw [ht] at h; cases h
    | ok s => rw [ht] at h; cases h
  | null => cases h
  | bool b => cases h
  | array => cases h
  | object => cases h
  | broken => cases h

/-- The coordinates known so far are finite. -/
structure PartialPosition.IsFinite (p : PartialPosition) : Prop where
  x : ∀ x ∈ p.x, x.isFinite = true
  y : ∀ y ∈ p.y, y.isFinite = true

lemma isFinite_of_setPosition (p : PartialPosition) (key : String) (d : Draft)
    (p' : PartialPosition) (hp : p.IsFinite) (h : setPosition p key d = .ok p') : p'.IsFinite := by
  unfold setPosition at h
  split at h
  · obtain ⟨o, ho, h⟩ := exists_of_bind_eq_ok h
    obtain ⟨x, hx, rfl⟩ := decoded_of_fill ho
    obtain rfl := Except.ok.inj h
    exact ⟨fun _ hmem => Option.some.inj hmem ▸ isFinite_of_decodeFloat hx, hp.y⟩
  · obtain ⟨o, ho, h⟩ := exists_of_bind_eq_ok h
    obtain ⟨y, hy, rfl⟩ := decoded_of_fill ho
    obtain rfl := Except.ok.inj h
    exact ⟨hp.x, fun _ hmem => Option.some.inj hmem ▸ isFinite_of_decodeFloat hy⟩
  · obtain rfl := eq_of_passOver h
    exact hp

lemma isFinite_of_decodePosition {d : Draft} {p : Position} (h : decodePosition d = .ok p) :
    p.IsFinite := by
  obtain ⟨ms, ending, h⟩ | ⟨items, rest, h⟩ := decoded_of_decodeRecord h
  · obtain ⟨q, hq, h⟩ := exists_of_bind_eq_ok h
    obtain ⟨x, hx, h⟩ := exists_of_bind_eq_ok h
    obtain ⟨y, hy, h⟩ := exists_of_bind_eq_ok h
    obtain rfl := Except.ok.inj h
    have hfinite := foldMembers_induction isFinite_of_setPosition ⟨by simp, by simp⟩ hq
    exact ⟨hfinite.x x (eq_of_require hx), hfinite.y y (eq_of_require hy)⟩
  · obtain ⟨x, _, hx, h⟩ := exists_of_run_bind_eq_ok h
    obtain ⟨y, _, hy, h⟩ := exists_of_run_bind_eq_ok h
    cases h
    obtain ⟨dx, hx⟩ := (decoded_of_nextField hx).resolve_right nofun
    obtain ⟨dy, hy⟩ := (decoded_of_nextField hy).resolve_right nofun
    exact ⟨isFinite_of_decodeFloat hx, isFinite_of_decodeFloat hy⟩

/-! ## Nodes and graphs -/

lemma isFinite_origin : origin.IsFinite := ⟨NumberText.isFinite_zero, NumberText.isFinite_zero⟩

lemma isFinite_of_setNode (n : PartialNode) (key : String) (d : Draft) (n' : PartialNode)
    (hn : ∀ p ∈ n.position, p.IsFinite) (h : setNode n key d = .ok n') :
    ∀ p ∈ n'.position, p.IsFinite := by
  unfold setNode at h
  split at h
  case h_3 =>
    obtain ⟨o, ho, h⟩ := exists_of_bind_eq_ok h
    obtain ⟨p, hp, rfl⟩ := decoded_of_fill ho
    obtain rfl := Except.ok.inj h
    exact fun _ hmem => Option.some.inj hmem ▸ isFinite_of_decodePosition hp
  case h_5 =>
    obtain rfl := eq_of_passOver h
    exact hn
  all_goals
    obtain ⟨o, -, h⟩ := exists_of_bind_eq_ok h
    obtain rfl := Except.ok.inj h
    exact hn

/-- A node without a position stands at the origin. -/
lemma isFinite_of_decodeNode {d : Draft} {n : Node} (h : decodeNode d = .ok n) :
    n.position.IsFinite := by
  obtain ⟨raw, hraw, h⟩ := exists_of_bind_eq_ok h
  have hposition : n.position = raw.position := by
    rw [RawNode.resolve] at h
    split at h
    · cases h
    · obtain rfl := Except.ok.inj h
      rfl
    · cases h
    · cases h
  rw [hposition]
  obtain ⟨ms, ending, h⟩ | ⟨items, rest, h⟩ := decoded_of_decodeRecord hraw
  · obtain ⟨q, hq, h⟩ := exists_of_bind_eq_ok h
    obtain ⟨id, -, h⟩ := exists_of_bind_eq_ok h
    obtain ⟨kind, -, h⟩ := exists_of_bind_eq_ok h
    obtain rfl := Except.ok.inj h
    have hfinite := foldMembers_induction isFinite_of_setNode (by simp) hq
    cases hq : q.position with
    | none => exact isFinite_origin
    | some p => exact hfinite p hq
  · obtain ⟨id, _, -, h⟩ := exists_of_run_bind_eq_ok h
    obtain ⟨kind, _, -, h⟩ := exists_of_run_bind_eq_ok h
    obtain ⟨p, _, hp, h⟩ := exists_of_run_bind_eq_ok h
    obtain ⟨data, _, -, h⟩ := exists_of_run_bind_eq_ok h
    cases h
    obtain ⟨dp, hp⟩ | horigin := decoded_of_nextField hp
    · exact isFinite_of_decodePosition hp
    · exact Option.some.inj horigin ▸ isFinite_origin

lemma isFinite_of_decodeNodes {d : Draft} {ns : List Node} (h : decodeList decodeNode d = .ok ns) :
    ∀ n ∈ ns, n.position.IsFinite := by
  intro n hn
  obtain ⟨s, hs⟩ := decoded_of_decodeList h n hn
  exact isFinite_of_decodeNode hs

lemma isFinite_of_setGraph (g : PartialGraph) (key : String) (d : Draft) (g' : PartialGraph)
    (hg : ∀ ns ∈ g.nodes, ∀ n ∈ ns, n.position.IsFinite) (h : setGraph g key d = .ok g') :
    ∀ ns ∈ g'.nodes, ∀ n ∈ ns, n.position.IsFinite := by
  unfold setGraph at h
  split at h
  · obtain ⟨o, ho, h⟩ := exists_of_bind_eq_ok h
    obtain ⟨ns, hns, rfl⟩ := decoded_of_fill ho
    obtain rfl := Except.ok.inj h
    exact fun _ hmem => Option.some.inj hmem ▸ isFinite_of_decodeNodes hns
  · obtain ⟨o, -, h⟩ := exists_of_bind_eq_ok h
    obtain rfl := Except.ok.inj h
    exact hg
  · obtain rfl := eq_of_passOver h
    exact hg

/-- The coordinates of a graph that was read are finite. -/
theorem isFinite_of_readGraph {document : String} {g : Graph} (h : readGraph document = .ok g) :
    ∀ x ∈ g.coordinates, x.isFinite = true := by
  rw [Graph.forall_mem_coordinates]
  obtain ⟨a, ha, h⟩ := exists_of_bind_eq_ok h
  split_ifs at h
  obtain rfl := Except.ok.inj h
  obtain ⟨ms, ending, h⟩ | ⟨items, rest, h⟩ := decoded_of_decodeRecord ha
  · obtain ⟨q, hq, h⟩ := exists_of_bind_eq_ok h
    obtain ⟨nodes, hnodes, h⟩ := exists_of_bind_eq_ok h
    obtain ⟨edges, -, h⟩ := exists_of_bind_eq_ok h
    obtain rfl := Except.ok.inj h
    exact foldMembers_induction isFinite_of_setGraph (by simp) hq nodes (eq_of_require hnodes)
  · obtain ⟨nodes, _, hnodes, h⟩ := exists_of_run_bind_eq_ok h
    obtain ⟨edges, _, -, h⟩ := exists_of_run_bind_eq_ok h
    cases h
    obtain ⟨d, hd⟩ := (decoded_of_nextField hnodes).resolve_right nofun
    exact isFinite_of_decodeNodes hd

end Wire

end AgentScript
