import AgentScript.Script.Clause
import AgentScript.Script.Header
import AgentScript.Script.Literal

/-!
# Looking ahead for clauses

A declaration is recorded when its header is read, so its clauses are looked up in the text that
follows: first in the rest of the header's line, then in a bounded number of further lines.

For an agent the search stays at the agent's own level.  It counts braces line by line; from a line
that begins with a header on, it passes over everything until the braces opened since then are
closed.  It ends where the agent's brace is closed, and where another agent begins.

For a tool the search ends at a line that begins with a header, and after a line that closes a
brace and opens none.
-/

namespace AgentScript.Script

/-- The lines searched after the header of an agent. -/
def agentReach : Nat := 20

/-- The lines searched after the header of a tool. -/
def toolReach : Nat := 5

/-- The clauses of an agent in the given lines, beyond those already known.  `depth` is the number
of braces open within the agent, and `skipping` the depth outside the member that is being passed
over. -/
def findAgentClauses (depth : Int) (skipping : Option Int) (known : AgentClauses) :
    List (List Char) → AgentClauses
  | [] => known
  | line :: later =>
    if skipping.isNone && Header.startsAgent line then known
    else
      let opens := skipping.isNone && Header.starts line
      let known := if skipping.isNone && !opens then known.add line else known
      let floor := if opens then some depth else skipping
      let depth := depth + netBraces line
      if depth < 0 then known
      else findAgentClauses depth (floor.filter (· < depth)) known later

/-- The clauses of an agent, from the rest of its header's line and from the lines after it. -/
def agentClauses (rest : List Char) (later : List (List Char)) : AgentClauses :=
  findAgentClauses 0 none {} (rest :: later.take agentReach)

/-- The first description in the given lines that a tool may take for its own. -/
def findToolDescription : List (List Char) → Option String
  | [] => none
  | line :: later =>
    if Header.starts line then none
    else
      match clause? "description" line with
      | some value => some value
      | none => if onlyCloses line then none else findToolDescription later

/-- The description of a tool, from the rest of its header's line, and from the lines after it
unless that rest closes more braces than it opens. -/
def toolDescription (rest : List Char) (later : List (List Char)) : Option String :=
  match clause? "description" rest with
  | some value => some value
  | none => if netBraces rest < 0 then none else findToolDescription (later.take toolReach)

end AgentScript.Script
