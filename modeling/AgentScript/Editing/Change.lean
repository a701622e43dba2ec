import AgentScript.Graph.Basic

/-!
# Changes

The two views of a document, its script and its graph, report what happens in them as *changes*:
new content of one side, together with who caused it.  A view also changes when it shows an update
that came from the other side; it reports that too, as an *echo* of the update if it can tell, and
otherwise as a change of unknown author.
-/

namespace AgentScript.Editing

/-- The number of updates applied so far. -/
structure Revision where
  number : Nat
  deriving DecidableEq, Repr, Inhabited

namespace Revision

def next (r : Revision) : Revision := ⟨r.number + 1⟩

def render (r : Revision) : String := "r" ++ toString r.number

end Revision

/-- The side a change happened on. -/
inductive Side where
  | text
  | graph
  deriving DecidableEq, Repr, Inhabited

/-- Who caused a change. -/
inductive Author where
  /-- The user. -/
  | user
  /-- The view, showing the update with this revision. -/
  | echo (revision : Revision)
  /-- The user or the view; the view cannot tell. -/
  | unknown
  deriving DecidableEq, Repr, Inhabited

/-- New content of one side. -/
inductive Change where
  | text (text : String)
  | graph (graph : Graph)
  deriving Repr, Inhabited

def Change.side : Change → Side
  | .text _ => .text
  | .graph _ => .graph

/-- A change as it is reported. -/
structure ReportedChange where
  author : Author
  change : Change
  deriving Repr, Inhabited

end AgentScript.Editing
