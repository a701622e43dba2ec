import AgentScript.Graph.Canonical
import AgentScript.Graph.Layout
import AgentScript.Script.Reading

/-!
# Converters

Keeping two views in step takes a function in either direction.  What the functions do is no
business of the controller, so it takes them as an argument.
-/

namespace AgentScript.Editing

/-- A function from scripts to graphs, with diagnostics, and one from graphs to scripts. -/
structure Converter where
  toGraph : String → Graph × List Diagnostic
  toText : Graph → String

namespace Converter

/-- Reading and layout one way, the canonical script the other. -/
def standard (layout : Geometry) : Converter where
  toGraph text :=
    let o := Script.outline text
    (layoutOn layout o, o.diagnostics)
  toText := Graph.script

end Converter

end AgentScript.Editing
