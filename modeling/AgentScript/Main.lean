import AgentScript.CommandLine.Program

/-!
# The program on a real machine
-/

namespace AgentScript.CommandLine

/-- The causes that the program has its own words for. -/
def FileError.ofIO : IO.Error → FileError
  | .noFileOrDirectory _ _ _ => .notFound
  | .permissionDenied _ _ _ => .denied
  | .inappropriateType _ 21 _ => .isDirectory
  | .inappropriateType _ _ _ => .notDirectory
  | e => .other (toString e)

/-- The machine as a host. -/
def machine : Host IO where
  readInput := do (← IO.getStdin).readBinToEnd
  readFile path := do
    try return .ok (← IO.FS.readBinFile path)
    catch e => return .error (.ofIO e)
  writeFile path content := do
    try
      IO.FS.writeFile path content
      return .ok ()
    catch e => return .error (.ofIO e)
  print text := do
    let out ← IO.getStdout
    out.putStr text
    out.flush
  report text := IO.eprint text

end AgentScript.CommandLine

def main (args : List String) : IO UInt32 :=
  AgentScript.CommandLine.run AgentScript.CommandLine.machine args
