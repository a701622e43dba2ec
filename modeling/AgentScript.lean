import AgentScript.Script.Reading
import AgentScript.Json.Decode
import AgentScript.Graph.Layout
import AgentScript.Graph.Canonical
import AgentScript.Graph.Lint
import AgentScript.Script.Equivalence
import AgentScript.Wire.Graph
import AgentScript.Wire.Outline
import AgentScript.Editing.Clock
import AgentScript.CommandLine.Directory
import AgentScript.Main
import AgentScript.Proofs.Editing.Agreement
import AgentScript.Proofs.Script.Fields
import AgentScript.Proofs.Script.Headers
import AgentScript.Proofs.Script.Clauses
import AgentScript.Proofs.Script.Lookahead
import AgentScript.Proofs.Graph.Sheets
import AgentScript.Proofs.Graph.Blocks
import AgentScript.Proofs.Graph.Legible
import AgentScript.Proofs.Graph.Regular
import AgentScript.Proofs.Script.Soundness
import AgentScript.Proofs.Graph.Ids
import AgentScript.Proofs.Graph.Stars
import AgentScript.Proofs.Graph.Drawing
import AgentScript.Proofs.Graph.Regeneration
import AgentScript.Proofs.Script.Seams
import AgentScript.Proofs.Script.Trimming
import AgentScript.Proofs.Script.Likeness
import AgentScript.Proofs.Graph.Equivalence
import AgentScript.Proofs.Graph.Entries
import AgentScript.Proofs.Script.Ownership
import AgentScript.Proofs.Script.Composition
import AgentScript.Proofs.CommandLine.Checking
import AgentScript.Editing.Moves
import AgentScript.Proofs.Editing.Courses
import AgentScript.Proofs.Editing.Bookkeeping
import AgentScript.Proofs.Editing.Loops
import AgentScript.Proofs.Editing.Hosting
import AgentScript.Proofs.Editing.Tasks
import AgentScript.Proofs.Editing.Resting
import AgentScript.Proofs.Editing.Stopping
import AgentScript.Proofs.Editing.Debouncing
import AgentScript.Proofs.Editing.Ticking
import AgentScript.Proofs.Editing.Confluence
import AgentScript.Proofs.Editing.Following
import AgentScript.Proofs.Script.Repeats
import AgentScript.Proofs.Graph.Placement
import AgentScript.Proofs.Graph.Forest
import AgentScript.Proofs.Graph.Census
import AgentScript.Proofs.Json.Numbers
import AgentScript.Proofs.Json.Documents
import AgentScript.Proofs.Json.Records
import AgentScript.Proofs.Wire.GraphDocuments
import AgentScript.Proofs.Wire.OutlineDocuments
import AgentScript.Proofs.Json.Finite
import AgentScript.Proofs.Wire.Positions
import AgentScript.Proofs.Wire.ReadBack
import AgentScript.Proofs.CommandLine.Routes
import AgentScript.Proofs.Graph.Collisions
import AgentScript.Proofs.Script.Descriptions
import AgentScript.Proofs.Script.OwnLevel
import AgentScript.Proofs.Script.Completion
import AgentScript.Proofs.Graph.Retouching
import AgentScript.Proofs.Graph.Findings
import AgentScript.Proofs.Script.Places
import AgentScript.Proofs.Script.FieldLists
import AgentScript.Proofs.Json.Spelling
import AgentScript.Proofs.Json.Fields
import AgentScript.Proofs.Json.Wholeness
import AgentScript.Proofs.Json.Rearranging
import AgentScript.Proofs.Wire.Assemblies
import AgentScript.Proofs.Wire.Rearranging
import AgentScript.Proofs.Script.Situations
import AgentScript.Proofs.Script.Offsets
