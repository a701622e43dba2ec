import AgentScript.Proofs.CommandLine.Runs
import AgentScript.Proofs.Graph.Regeneration
import AgentScript.Proofs.Wire.GraphDocuments

/-!
# Two routes to the canonical script

A script becomes canonical in one run of the program, or in two: one that lays it out as a graph
document, and one that generates a script from the document.  The second route changes the positions
of the nodes, as far as the numbers of a document are not exact, and nothing else; and the script of a
graph is made of neither positions nor the order of anything that a document loses
(`Graph.blocks_reread`).  So the routes agree (`routes_agree`).
-/

namespace AgentScript

open Script Canonical AgentScript.Json

/-! ## What positions do not matter for -/

namespace Graph

variable (g : Graph)

lemma node?_reread (id : String) : g.reread.node? id = (g.node? id).map Node.reread :=
  List.find?_map

lemma link?_reread (e : Edge) : g.reread.link? e = g.link? e := by
  rw [link?, link?, node?_reread, node?_reread]
  cases g.node? e.source <;> cases g.node? e.target <;> rfl

lemma links_reread : g.reread.links = g.links :=
  List.filterMap_congr fun e _ => g.link?_reread e

lemma agentBlocks_reread (ls : Links) :
    agentBlocks ls (g.nodes.map Node.reread) = agentBlocks ls g.nodes :=
  List.filterMap_map

lemma looseTools_reread (ls : Links) :
    looseTools ls (g.nodes.map Node.reread) = looseTools ls g.nodes := by
  rw [looseTools, looseTools, List.filter_map, List.filterMap_map]
  rfl

lemma typeBlocks_reread (ls : Links) :
    typeBlocks ls (g.nodes.map Node.reread) = typeBlocks ls g.nodes := by
  rw [typeBlocks, typeBlocks, List.filter_map, List.filterMap_map]
  rfl

lemma blocks_reread : blocks g.reread = blocks g := by
  simp only [blocks, links_reread]
  rw [reread, agentBlocks_reread, looseTools_reread, typeBlocks_reread]

end Graph

namespace CommandLine

/-- Every command line that asks for the command and reads the given input, and whose output can be
written, exits with `0` and leaves the given output where it says, and nothing else but a report. -/
def Command.Writes (c : Command) (input output : String) : Prop :=
  ∀ (d : Directory) (args : List String) (r : Request), read args = .ok (.run r) → r.command = c →
    d.source r.input = .ok input.toUTF8 → d.takes r.output = true →
    ∃ report, d.run args = (0, { d.deliver r.output output with reported := d.reported ++ report })

lemma Command.writes_of_result {c : Command} {input output : String} {report : List Diagnostic}
    (h : c.result input = .ok ⟨report, output, false⟩) : c.Writes input output := by
  intro d args r hread hcommand hsource htakes
  have hresult : r.command.result input = .ok ⟨report, output, false⟩ := by rw [hcommand, h]
  refine ⟨reportLines report, ?_⟩
  rw [Directory.run_eq_run_serve hread, Directory.run_serve hsource htakes hresult]
  rfl

lemma writes_layout (text : String) :
    Command.layout.Writes text (Wire.graphDocument (layout (outline text)) ++ "\n") := by
  have hresult : Command.layout.result text = .ok ⟨(outline text).diagnostics,
      Wire.graphDocument (layout (outline text)) ++ "\n", false⟩ := by
    rw [Command.result]
  exact Command.writes_of_result hresult

lemma writes_roundtrip (text : String) :
    Command.roundtrip.Writes text (layout (outline text)).script := by
  have hresult : Command.roundtrip.result text =
      .ok ⟨(outline text).diagnostics, (layout (outline text)).script, false⟩ := by
    rw [Command.result]
  exact Command.writes_of_result hresult

lemma writes_generate {document : String} {g : Graph} (h : Wire.readGraph document = .ok g) :
    Command.generate.Writes document g.script := by
  have hresult : Command.generate.result document = .ok ⟨g.lint, g.script, false⟩ := by
    rw [Command.result, h]
  exact Command.writes_of_result hresult

/-- **The two routes agree**: what is generated from the document of a script is what the script
becomes in one run. -/
theorem routes_agree (text : String)
    (h : ∀ x ∈ (layout (outline text)).coordinates, (readBack x).isSome) :
    ∃ document script : String, Command.layout.Writes text document ∧
      Command.generate.Writes document script ∧ Command.roundtrip.Writes text script := by
  have htail : "\n".toList = ['\n'] := by decide
  have hends : EndsNumber "\n".toList := by
    rw [htail]
    exact endsNumber_cons (by decide) (by decide) (by decide) (by decide) []
  have hspaces : tokens "\n".toList = [] := by
    rw [htail, tokens_space (by decide), tokens_nil]
  have hread := Wire.readGraph_graphDocument h hends hspaces
  have hgenerate := writes_generate hread
  rw [Graph.script_eq_of_blocks_eq (Graph.blocks_reread _)] at hgenerate
  exact ⟨_, _, writes_layout text, hgenerate, writes_roundtrip text⟩

/-- A script with an agent, a tool, a state block and a type, and with a reverse solidus, a tab and a
character beyond the first plane in what is kept of it. -/
def escapedText : String :=
  "agent A \x7b\n  description: \"C:\\dir\t🙂\"\n  tool t(q: string) -> string \x7b\n  \x7d\n" ++
    "  state \x7b\n    x?: y\n  \x7d\n\x7d\ntype T \x7b\n  z: w\n\x7d\n"

theorem routes_agree_escapedText :
    (∀ x ∈ (layout (outline escapedText)).coordinates, (readBack x).isSome) ∧
      ∃ document : String,
        (({ input := escapedText.toUTF8 } : Directory).run ["layout"]).2.printed = document ∧
          (({ input := document.toUTF8 } : Directory).run ["generate"]).1 = 0 ∧
          (({ input := document.toUTF8 } : Directory).run ["generate"]).2.printed =
            (({ input := escapedText.toUTF8 } : Directory).run ["roundtrip"]).2.printed := by
  have hreadable : ∀ x ∈ (layout (outline escapedText)).coordinates, (readBack x).isSome := by
    decide +kernel
  obtain ⟨document, script, hlayout, hgenerate, hroundtrip⟩ := routes_agree escapedText hreadable
  have hread : read ["layout"] = .ok (.run ⟨.layout, none, none⟩) ∧
      read ["generate"] = .ok (.run ⟨.generate, none, none⟩) ∧
      read ["roundtrip"] = .ok (.run ⟨.roundtrip, none, none⟩) := by
    decide +kernel
  obtain ⟨_, hlayout⟩ := hlayout { input := escapedText.toUTF8 } _ _ hread.1 rfl rfl rfl
  obtain ⟨_, hgenerate⟩ := hgenerate { input := document.toUTF8 } _ _ hread.2.1 rfl rfl rfl
  obtain ⟨_, hroundtrip⟩ := hroundtrip { input := escapedText.toUTF8 } _ _ hread.2.2 rfl rfl rfl
  refine ⟨hreadable, document, ?_, ?_, ?_⟩
  · rw [hlayout]
    exact String.empty_append
  · rw [hgenerate]
  · rw [hgenerate, hroundtrip]
    rfl

end CommandLine

end AgentScript
