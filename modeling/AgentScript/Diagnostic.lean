/-!
# Diagnostics

A diagnostic is a problem that stops nothing: reading a script always yields an outline, and a
graph always yields text.  Line `0` stands for "no line": a finding about a graph has no place in
a text.
-/

namespace AgentScript

/-- How bad a finding is. -/
inductive Severity where
  | warning
  | error
  deriving DecidableEq, Repr, Inhabited

/-- The name of a severity, in messages and in documents. -/
def Severity.name : Severity → String
  | .warning => "warning"
  | .error => "error"

/-- A problem found in a script or in a graph. -/
structure Diagnostic where
  severity : Severity
  message : String
  /-- The line, counted from one; zero for a finding about a graph. -/
  line : Nat
  deriving DecidableEq, Repr, Inhabited

namespace Diagnostic

/-- Whether the finding is an error. -/
def isError (d : Diagnostic) : Bool := d.severity == .error

/-- The finding as one line of a report. -/
def render (d : Diagnostic) : String :=
  if 0 < d.line then
    d.severity.name ++ " (line " ++ toString d.line ++ "): " ++ d.message
  else
    d.severity.name ++ ": " ++ d.message

end Diagnostic

end AgentScript
