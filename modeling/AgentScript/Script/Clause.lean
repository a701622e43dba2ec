import AgentScript.Outline
import AgentScript.Text.Blank
import AgentScript.Text.Leading

/-!
# Quoted clauses

An agent or a tool says more about itself in *clauses*: a key, a colon and a quoted value, such as
`description: "Looks up the weather"`.  A clause may stand anywhere in a line, also right after
other text: `nickname: "x"` holds a clause with the key `name`.

A value begins after a quote of either kind, has at least one character, and ends before the next
quote of either kind.  There are no escapes, and the first character may itself be a quote.  Of
several clauses with one key in a line, the first that has a value counts.
-/

namespace AgentScript.Script

open AgentScript.Text

/-- The quotes around a value. -/
def isQuote (c : Char) : Bool := c == '"' || c == '\''

/-- The value whose opening quote the text begins with. -/
def quotedValue : List Char → Option (List Char)
  | q :: c :: cs =>
    if isQuote q then
      match cs.dropWhile (!isQuote ·) with
      | [] => none
      | _ :: _ => some (c :: cs.takeWhile (!isQuote ·))
    else none
  | _ => none

/-- The value of the clause that the text begins with. -/
def clauseHere (key : String) (cs : List Char) : Option (List Char) := do
  let rest ← after? (key.toList ++ [':']) cs
  quotedValue (dropBlanks rest)

/-- The value of the first clause with the given key in a line. -/
def clauseText (key : String) : List Char → Option (List Char)
  | [] => none
  | c :: cs =>
    match clauseHere key (c :: cs) with
    | some value => some value
    | none => clauseText key cs

/-- The value of the first clause with the given key in a line. -/
def clause? (key : String) (line : List Char) : Option String :=
  (clauseText key line).map String.ofList

/-- What an agent's clauses tell. -/
structure AgentClauses where
  description : Option String := none
  version : Option String := none
  model : Option ModelChoice := none
  deriving DecidableEq, Repr, Inhabited

namespace AgentClauses

/-- The model after a line with the given clauses; a line without any leaves it as it is. -/
def modelWith (model : Option ModelChoice) (provider name : Option String) : Option ModelChoice :=
  if provider.isSome || name.isSome then
    let before := model.getD {}
    some ⟨provider.or before.provider, name.or before.name⟩
  else model

/-- The clauses known after one more line: what the line tells replaces what was known. -/
def add (known : AgentClauses) (line : List Char) : AgentClauses where
  description := (clause? "description" line).or known.description
  version := (clause? "version" line).or known.version
  model := modelWith known.model (clause? "provider" line) (clause? "name" line)

end AgentClauses

end AgentScript.Script
