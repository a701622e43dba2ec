import AgentScript.Script.Header
import AgentScript.Script.Literal

/-!
# The openings of a line

A line may begin with a header, the rest after that header's brace with another one, and so on:
`agent A { state {` opens two bodies.  These are the *openings* of the line.  The chain ends where
no header follows, and after a header whose body holds fields, since in such a body nothing but
fields and braces has a meaning.  What is left of the line is the *body text* that follows.

The body text is masked as part of its line: when the parameters of a tool leave a literal open,
the literal goes on in the body text.
-/

namespace AgentScript.Script

open AgentScript.Text

/-- A header within a line. -/
structure Opening where
  header : Header
  /-- The column of the keyword, counted from one. -/
  column : Nat
  /-- The line's text after the header's brace. -/
  rest : List Char
  deriving DecidableEq, Repr, Inhabited

/-- The openings of a text that `before` characters of its line precede. -/
def openingsFrom (before : Nat) (cs : List Char) : List Opening :=
  match _h : Header.read? cs with
  | none => []
  | some (header, rest) =>
    let column := before + (cs.takeWhile isBlank).length + 1
    ⟨header, column, rest⟩ ::
      if header.opensFields then []
      else openingsFrom (before + (cs.length - rest.length)) rest
termination_by cs.length
decreasing_by exact Header.length_lt_of_read? _h

/-- The openings of a line. -/
def openings (line : List Char) : List Opening := openingsFrom 0 line

/-- The masked text that follows the last of some openings of a line. -/
def bodyText (line : List Char) (opened : List Opening) : List Char :=
  let rest := (opened.getLast?.map (·.rest)).getD line
  mask (situationAfter .code (line.take (line.length - rest.length))) rest

end AgentScript.Script
