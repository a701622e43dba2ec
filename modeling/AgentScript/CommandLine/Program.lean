import AgentScript.CommandLine.Help
import AgentScript.Graph.Canonical
import AgentScript.Graph.Layout
import AgentScript.Graph.Lint
import AgentScript.Script.Reading
import AgentScript.Wire.Graph
import AgentScript.Wire.Outline

/-!
# The program

Every command takes one text and yields another.  What it finds on the way is reported apart from
its output, except by the command that checks a script, whose output is the report.

What the program needs from its surroundings is a *host*: the standard input, files, and two
streams to write to.
-/

namespace AgentScript.CommandLine

/-! ## Commands -/

/-- What a command makes of its input. -/
structure Result where
  /-- What is reported apart from the output. -/
  report : List Diagnostic := []
  output : String
  /-- Whether the input is faulty, although there is output. -/
  faulty : Bool := false
  deriving DecidableEq, Repr, Inhabited

/-- The lines of a report. -/
def reportLines (diagnostics : List Diagnostic) : String :=
  String.join (diagnostics.map fun d => d.render ++ "\n")

/-- The report of the command that checks a script. -/
def checkResult (o : Outline) : Result :=
  let diagnostics := o.diagnostics ++ (layout o).lint
  let summary :=
    toString o.agents.length ++ " agents, " ++ toString o.tools.length ++ " tools, " ++
      toString o.events.length ++ " events, " ++ toString diagnostics.length ++ " diagnostics\n"
  { output := reportLines diagnostics ++ summary, faulty := diagnostics.any Diagnostic.isError }

/-- What a command makes of its input, or why it makes nothing of it. -/
def Command.result (c : Command) (text : String) : Except String Result :=
  match c with
  | .parse =>
    let o := Script.outline text
    .ok { report := o.diagnostics, output := Wire.OutlineDocument.write o ++ "\n" }
  | .layout =>
    let o := Script.outline text
    .ok { report := o.diagnostics, output := Wire.graphDocument (AgentScript.layout o) ++ "\n" }
  | .generate =>
    match Wire.readGraph text with
    | .ok g => .ok { report := g.lint, output := g.script }
    | .error e => .error ("Failed to load graph: " ++ Wire.graphErrorMessage e)
  | .roundtrip =>
    let o := Script.outline text
    .ok { report := o.diagnostics, output := (AgentScript.layout o).script }
  | .check => .ok (checkResult (Script.outline text))

/-! ## Surroundings -/

/-- Why a file cannot be read or written. -/
inductive FileError where
  | notFound
  | isDirectory
  | notDirectory
  | denied
  | other (message : String)
  deriving DecidableEq, Repr, Inhabited

def FileError.message : FileError → String
  | .notFound => "No such file or directory (os error 2)"
  | .isDirectory => "Is a directory (os error 21)"
  | .notDirectory => "Not a directory (os error 20)"
  | .denied => "Permission denied (os error 13)"
  | .other message => message

/-- What the program needs from its surroundings. -/
structure Host (m : Type → Type) where
  readInput : m ByteArray
  readFile (path : String) : m (Except FileError ByteArray)
  writeFile (path content : String) : m (Except FileError Unit)
  print (text : String) : m Unit
  report (text : String) : m Unit

section

variable {m : Type → Type} [Monad m]

def notText : String := "stream did not contain valid UTF-8"

/-- The input of a request. -/
def readSource (host : Host m) (path : Option String) : m (Except String String) := do
  match path.filter (· ≠ "-") with
  | none =>
    match String.fromUTF8? (← host.readInput) with
    | some text => return .ok text
    | none => return .error ("Failed to read stdin: " ++ notText)
  | some path =>
    let failed (reason : String) := "Failed to read input file '" ++ path ++ "': " ++ reason
    match ← host.readFile path with
    | .ok bytes =>
      match String.fromUTF8? bytes with
      | some text => return .ok text
      | none => return .error (failed notText)
    | .error e => return .error (failed e.message)

/-- Writes the output of a request. -/
def writeTarget (host : Host m) (path : Option String) (text : String) :
    m (Except String Unit) := do
  match path with
  | none => host.print text; return .ok ()
  | some path =>
    match ← host.writeFile path text with
    | .ok _ => return .ok ()
    | .error e =>
      return .error ("Failed to write output file '" ++ path ++ "': " ++ e.message)

/-- Reports why the program gives up. -/
def giveUp (host : Host m) (reason : String) : m UInt32 := do
  host.report ("\nError: " ++ reason ++ "\n")
  return 1

/-- Serves a request, and returns the exit code. -/
def serve (host : Host m) (r : Request) : m UInt32 := do
  match ← readSource host r.input with
  | .error reason => giveUp host reason
  | .ok text =>
    match r.command.result text with
    | .error reason => giveUp host reason
    | .ok result =>
      host.report (reportLines result.report)
      match ← writeTarget host r.output result.output with
      | .error reason => giveUp host reason
      | .ok _ => return if result.faulty then 1 else 0

/-- Runs the program with the given arguments, and returns the exit code. -/
def run (host : Host m) (args : List String) : m UInt32 := do
  match read args with
  | .error e => host.report (e.message ++ "\n"); return 2
  | .ok (.help topic) => host.print (helpText topic); return 0
  | .ok .version => host.print versionText; return 0
  | .ok (.run request) => serve host request

end

end AgentScript.CommandLine
