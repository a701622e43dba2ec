import AgentScript.CommandLine.Arguments

/-!
# Help

What the program says about itself.
-/

namespace AgentScript.CommandLine

/-- The name and the version of the program. -/
def versionText : String := "sagflow 0.1.0\n"

/-- The text in a column of the given width. -/
def pad (width : Nat) (text : String) : String :=
  text ++ String.ofList (List.replicate (width - text.length) ' ')

/-- A row of a table: what is explained, and the explanation. -/
def row (width : Nat) (entry : String × String) : String :=
  "  " ++ pad width entry.1 ++ "  " ++ entry.2 ++ "\n"

/-- A table with its heading. -/
def table (heading : String) (entries : List (String × String)) : String :=
  let width := (entries.map (·.1.length)).foldl max 0
  heading ++ ":\n" ++ String.join (entries.map (row width))

def verboseEntry : String × String :=
  ("-v, --verbose...",
    "Increase log verbosity (-v debug, -vv trace). RUST_LOG takes precedence")

/-- Help about all commands. -/
def generalHelp : String :=
  "Convert SAG agent workflows between source text and editor graphs\n\n" ++
  "Usage: sagflow-cli [OPTIONS] <COMMAND>\n\n" ++
  table "Commands" ((Command.all.map fun c => (c.name, c.about)) ++
    [("help", "Print this message or the help of the given subcommand(s)")]) ++ "\n" ++
  table "Options" [verboseEntry, ("-h, --help", "Print help"), ("-V, --version", "Print version")]

/-- Help about one command. -/
def commandHelp (c : Command) : String :=
  c.about ++ "\n\n" ++
  "Usage: sagflow-cli " ++ c.name ++ " [OPTIONS] [INPUT]\n\n" ++
  table "Arguments" [("[INPUT]", "Input file; `-` or omitted reads standard input")] ++ "\n" ++
  table "Options"
    [("-o, --output <OUTPUT>", "Write the result to this file instead of standard output"),
      verboseEntry, ("-h, --help", "Print help")]

def helpText (topic : Option Command) : String := (topic.map commandHelp).getD generalHelp

end AgentScript.CommandLine
