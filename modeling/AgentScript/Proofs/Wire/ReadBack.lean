import AgentScript.Proofs.Wire.OutlineDocuments
import AgentScript.Proofs.Wire.Positions

/-!
# Documents come back

Both documents that are written are read back as what they were written from: the graph, and the
outline (`documents_come_back`).  Two things are asked.

* A double is written with the fewest digits that tell it apart, but read in steps that may miss it
  (see `Json/Number.lean`), so each finite coordinate of a graph is asked to come back.  A graph that
  was itself read from a document has finite coordinates only, and nothing else is asked of it.
* Lines and columns are machine words, and a natural number beyond these would be read as a double.
-/

namespace AgentScript

open AgentScript.Json

lemma Graph.reread_eq {g : Graph} (h : ∀ x ∈ g.coordinates, readBack x = some x) : g.reread = g := by
  have hnodes : g.nodes.map Node.reread = g.nodes := by
    refine (List.map_congr_left fun n hn => ?_).trans (List.map_id _)
    obtain ⟨hx, hy⟩ := forall_mem_coordinates.1 h n hn
    simp [Node.reread, Position.reread, hx, hy]
  rw [Graph.reread, hnodes]

namespace Wire

/-- A graph whose coordinates come back does. -/
lemma readGraph_graphDocument_self {g : Graph} (h : ∀ x ∈ g.coordinates, readBack x = some x) :
    readGraph (graphDocument g) = .ok g := by
  have hends : EndsNumber "".toList := endsNumber_nil
  have hread := readGraph_graphDocument (fun x hx => Option.isSome_of_eq_some (h x hx)) hends
    tokens_nil
  rwa [String.append_empty, Graph.reread_eq h] at hread

/-- **Documents come back**: graphs with finite coordinates, graphs that were read from any text,
and outlines. -/
theorem documents_come_back :
    (∀ g : Graph, (∀ x ∈ g.coordinates, x.isFinite = true) →
      (∀ x ∈ g.coordinates, x.isFinite = true → readBack x = some x) →
      readGraph (graphDocument g) = .ok g) ∧
    (∀ (text : String) (g : Graph), readGraph text = .ok g →
      (∀ x ∈ g.coordinates, x.isFinite = true → readBack x = some x) →
      readGraph (graphDocument g) = .ok g) ∧
    ∀ o : Outline, o.WordSized → OutlineDocument.read (OutlineDocument.write o) = .ok o := by
  refine ⟨fun g hfinite hcodec => ?_, fun text g hread hcodec => ?_, fun o ho => ?_⟩
  · exact readGraph_graphDocument_self fun x hx => hcodec x hx (hfinite x hx)
  · have hfinite := isFinite_of_readGraph hread
    exact readGraph_graphDocument_self fun x hx => hcodec x hx (hfinite x hx)
  · exact OutlineDocument.read_write ho

/-! ## A graph, a document and an outline -/

/-- Every kind of node, with a quote, a control character and a character beyond the first plane in
their strings, and an edge with a handle. -/
def mixedGraph : Graph where
  nodes :=
    [⟨"a", ⟨100, -250.5⟩, .agent ⟨"A", some "says \"hi\"\n", none, some "m\x01", none⟩⟩,
      ⟨"t", ⟨0.1, 1e300⟩, .tool ⟨"T", some "q: \\", none, some "🙂"⟩⟩,
      ⟨"e", ⟨0, 0⟩, .event ⟨"E", some .stop⟩⟩, ⟨"s", ⟨0, 0⟩, .state ⟨"S", some ["x: y", ""]⟩⟩]
  edges := [(Edge.joining "a" "t").leavingAt "out", Edge.joining "a" "s"]

/-- A document with members in another order, without a position, and with an integer for a
coordinate. -/
def terseDocument : String :=
  "\x7b\"edges\": [], \"nodes\": [\x7b\"type\": \"tool\", \"id\": \"t\", \"data\": [\"T\"]\x7d, " ++
    "\x7b\"id\": \"a\", \"type\": \"agent\", \"position\": \x7b\"y\": 1e2, \"x\": -3\x7d, " ++
    "\"data\": \x7b\"model\": null, \"label\": \"A\"\x7d\x7d]\x7d"

/-- The graph of that document. -/
def terseGraph : Graph where
  nodes := [⟨"t", ⟨0, 0⟩, .tool ⟨"T", none, none, none⟩⟩,
    ⟨"a", ⟨-3, 100⟩, .agent ⟨"A", none, none, none, none⟩⟩]

/-- An outline with an agent, a tool, a state block and a diagnostic. -/
def smallOutline : Outline where
  agents := [⟨"A", some "a \"b\"", none, some ⟨none, some "m"⟩, ⟨1, 1⟩⟩]
  tools := [⟨"t", "", some "string", none, "A", ⟨2, 3⟩⟩]
  states := [⟨"A", [⟨"x", "y", true⟩], ⟨3, 3⟩⟩]
  diagnostics := [⟨.warning, "…", 4⟩]

deriving instance DecidableEq for Position

deriving instance DecidableEq for Node

deriving instance DecidableEq for Graph

instance decidableEqOk {ε α : Type} [DecidableEq α] (r : Except ε α) (a : α) : Decidable (r = .ok a) :=
  match r with
  | .ok b => decidable_of_iff (b = a) ⟨congrArg Except.ok, Except.ok.inj⟩
  | .error _ => isFalse nofun

theorem documents_come_back_mixedGraph :
    ((∀ x ∈ mixedGraph.coordinates, x.isFinite = true) ∧
        (∀ x ∈ mixedGraph.coordinates, x.isFinite = true → readBack x = some x) ∧
        readGraph (graphDocument mixedGraph) = .ok mixedGraph) ∧
      (readGraph terseDocument = .ok terseGraph ∧
        (∀ x ∈ terseGraph.coordinates, x.isFinite = true → readBack x = some x) ∧
        readGraph (graphDocument terseGraph) = .ok terseGraph) ∧
      smallOutline.WordSized ∧
        OutlineDocument.read (OutlineDocument.write smallOutline) = .ok smallOutline :=
  have hfinite : ∀ x ∈ mixedGraph.coordinates, x.isFinite = true := by decide +kernel
  have hmixed : ∀ x ∈ mixedGraph.coordinates, x.isFinite = true → readBack x = some x := by
    decide +kernel
  have hterse : ∀ x ∈ terseGraph.coordinates, x.isFinite = true → readBack x = some x := by
    decide +kernel
  have hread : readGraph terseDocument = .ok terseGraph := by decide +kernel
  have hwords : smallOutline.WordSized :=
    ⟨by decide, by decide, by decide, by decide, by decide, by decide⟩
  ⟨⟨hfinite, hmixed, documents_come_back.1 mixedGraph hfinite hmixed⟩,
    ⟨hread, hterse, documents_come_back.2.1 terseDocument terseGraph hread hterse⟩,
    hwords, documents_come_back.2.2 smallOutline hwords⟩

end Wire

end AgentScript
