import AgentScript.Text.Leading

/-!
# Arguments

A command line names a command, with options before and after it.  Commands read one file, or the
standard input if none is named or if it is named `-`, and write to a file that an option names, or
else to the standard output.

Short options may be joined, `-vo out`, and an option takes its value from the same argument or from
the next one.  The next one is refused as a value if it looks like an option.  After `--` there are
no options.
-/

namespace AgentScript.CommandLine

inductive Command where
  | parse
  | layout
  | generate
  | roundtrip
  | check
  deriving DecidableEq, Repr, Inhabited

namespace Command

def all : List Command := [.parse, .layout, .generate, .roundtrip, .check]

def name : Command → String
  | .parse => "parse"
  | .layout => "layout"
  | .generate => "generate"
  | .roundtrip => "roundtrip"
  | .check => "check"

def ofName? (name : String) : Option Command := all.find? (·.name == name)

/-- What a command does. -/
def about : Command → String
  | .parse => "Parse SAG text and print the extracted entities as JSON"
  | .layout => "Parse and lay out SAG text, printing the graph JSON"
  | .generate => "Generate SAG text from a graph JSON document"
  | .roundtrip => "Parse, lay out and regenerate SAG text in canonical form"
  | .check => "Report diagnostics for SAG text and lint the resulting graph"

end Command

/-- What a command is to work on. -/
structure Request where
  command : Command
  /-- The file that is read; the standard input if there is none. -/
  input : Option String := none
  /-- The file that is written; the standard output if there is none. -/
  output : Option String := none
  deriving DecidableEq, Repr, Inhabited

/-- What a command line asks for. -/
inductive Invocation where
  /-- Help, about one command or about all. -/
  | help (topic : Option Command)
  | version
  | run (request : Request)
  deriving DecidableEq, Repr, Inhabited

/-- Why a command line cannot be understood. -/
inductive UsageError where
  | noCommand
  | unknownCommand (name : String)
  | unexpected (argument : String)
  | missingValue (option : String)
  | repeatedOption (option : String)
  deriving DecidableEq, Repr, Inhabited

def UsageError.message : UsageError → String
  | .noCommand => "error: a subcommand is required"
  | .unknownCommand name => "error: unrecognized subcommand '" ++ name ++ "'"
  | .unexpected argument => "error: unexpected argument '" ++ argument ++ "' found"
  | .missingValue option =>
    "error: a value is required for '" ++ option ++ "' but none was supplied"
  | .repeatedOption option =>
    "error: the argument '" ++ option ++ "' cannot be used multiple times"

/-- What a run of joined short options comes to. -/
inductive Cluster where
  /-- Nothing but requests to say more. -/
  | flags
  | help
  | version
  /-- The option for the output, with a value if more characters follow. -/
  | output (value : Option String)
  | unknown
  deriving DecidableEq, Repr, Inhabited

/-- The value that is joined to an option. -/
def joinedValue : List Char → Option String
  | [] => none
  | '=' :: cs => some (String.ofList cs)
  | cs => some (String.ofList cs)

/-- Reads joined short options. -/
def readCluster : List Char → Cluster
  | [] => .flags
  | c :: cs =>
    if c = 'v' then readCluster cs
    else if c = 'h' then .help
    else if c = 'V' then .version
    else if c = 'o' then .output (joinedValue cs)
    else .unknown

/-- Whether an argument looks like an option; a lone hyphen does not. -/
def looksLikeOption (argument : String) : Bool :=
  match argument.toList with
  | '-' :: _ :: _ => true
  | _ => false

/-- The rest of an argument after the given text. -/
def after? (start argument : String) : Option (List Char) :=
  Text.after? start.toList argument.toList

def outputOption : String := "--output <OUTPUT>"

/-- Sets the output of a request. -/
def setOutput (r : Request) (value : String) : Except UsageError Request :=
  if r.output.isSome then .error (.repeatedOption outputOption)
  else .ok { r with output := some value }

/-- Adds an argument that is no option. -/
def addInput (r : Request) (value : String) : Except UsageError Request :=
  if r.input.isSome then .error (.unexpected value) else .ok { r with input := some value }

/-- Reads arguments among which there are no options. -/
def readPlain (r : Request) : List String → Except UsageError Invocation
  | [] => .ok (.run r)
  | a :: rest => do readPlain (← addInput r a) rest

/-- Reads the arguments after a command. -/
def readRequest (r : Request) : List String → Except UsageError Invocation
  | [] => .ok (.run r)
  | a :: rest =>
    if a = "--" then readPlain r rest
    else if a = "--verbose" then readRequest r rest
    else if a = "--help" then .ok (.help (some r.command))
    else if a = "--output" then
      match rest with
      | value :: rest =>
        if looksLikeOption value then .error (.missingValue outputOption)
        else do readRequest (← setOutput r value) rest
      | [] => .error (.missingValue outputOption)
    else
      match after? "--output=" a, after? "--" a, after? "-" a with
      | some value, _, _ => do readRequest (← setOutput r (String.ofList value)) rest
      | none, some _, _ => .error (.unexpected a)
      | none, none, none => do readRequest (← addInput r a) rest
      | none, none, some [] => do readRequest (← addInput r a) rest
      | none, none, some cluster =>
        match readCluster cluster with
        | .flags => readRequest r rest
        | .help => .ok (.help (some r.command))
        | .output (some value) => do readRequest (← setOutput r value) rest
        | .output none =>
          match rest with
          | value :: rest =>
            if looksLikeOption value then .error (.missingValue outputOption)
            else do readRequest (← setOutput r value) rest
          | [] => .error (.missingValue outputOption)
        | .version => .error (.unexpected a)
        | .unknown => .error (.unexpected a)

/-- Reads the arguments after the command that asks for help. -/
def readTopic : List String → Except UsageError Invocation
  | [] => .ok (.help none)
  | [a] =>
    match Command.ofName? a with
    | some c => .ok (.help (some c))
    | none => .error (.unknownCommand a)
  | _ :: b :: _ => .error (.unknownCommand b)

/-- Reads a command line. -/
def read : List String → Except UsageError Invocation
  | [] => .error .noCommand
  | a :: rest =>
    if a = "--verbose" then read rest
    else if a = "--help" then .ok (.help none)
    else if a = "--version" then .ok .version
    else
      match after? "--" a, after? "-" a with
      | some _, _ => .error (.unexpected a)
      | none, some (c :: cs) =>
        match readCluster (c :: cs) with
        | .flags => read rest
        | .help => .ok (.help none)
        | .version => .ok .version
        | .output _ => .error (.unexpected a)
        | .unknown => .error (.unexpected a)
      | none, _ =>
        match Command.ofName? a with
        | some c => readRequest { command := c } rest
        | none => if a = "help" then readTopic rest else .error (.unknownCommand a)

end AgentScript.CommandLine
