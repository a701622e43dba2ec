import AgentScript.CommandLine.Program

/-!
# A directory as a host

A host without any real surroundings: a directory of files, and what was written to the two
streams.  A path is followed step by step from the directory; what lies outside of it can not be
reached, apart from the device that is empty and takes everything.
-/

namespace AgentScript.CommandLine

/-- The files below a directory by their paths, and the streams of a program. -/
structure Directory where
  files : List (List String × ByteArray) := []
  input : ByteArray := ByteArray.empty
  printed : String := ""
  reported : String := ""
  deriving Inhabited

namespace Directory

/-- What a path leads to. -/
inductive Target where
  | file (path : List String)
  | directory
  /-- No file, but one could be put there. -/
  | free (path : List String)
  | nowhere (error : FileError)
  | emptyDevice
  deriving DecidableEq, Repr, Inhabited

def isFile (d : Directory) (path : List String) : Bool := d.files.any (·.1 == path)

/-- Whether some file lies below a path. -/
def isFolder (d : Directory) (path : List String) : Bool :=
  path.isEmpty || d.files.any fun f => path.isPrefixOf f.1 && f.1 ≠ path

/-- Follows the steps of a path from a folder on. -/
def follow (d : Directory) (folder : List String) : List String → Target
  | [] => .directory
  | step :: rest =>
    if step = "" ∨ step = "." then follow d folder rest
    else if step = ".." then
      if folder.isEmpty then if rest.isEmpty then .directory else .nowhere .notFound
      else follow d folder.dropLast rest
    else
      let path := folder ++ [step]
      if d.isFolder path then follow d path rest
      else if d.isFile path then if rest.isEmpty then .file path else .nowhere .notDirectory
      else if rest.isEmpty then .free path
      else if rest.all (· = "") then .nowhere .isDirectory
      else .nowhere .notFound

/-- What a path leads to. -/
def target (d : Directory) (path : String) : Target :=
  if path = "" then .nowhere .notFound
  else if path = "/dev/null" then .emptyDevice
  else
    match path.splitOn "/" with
    | "" :: rest => if rest.all (· = "") then .directory else .nowhere .notFound
    | steps => d.follow [] steps

/-- The content of a file. -/
def contentOf (d : Directory) (path : String) : Except FileError ByteArray :=
  match d.target path with
  | .file path => .ok ((d.files.lookup path).getD ByteArray.empty)
  | .directory => .error .isDirectory
  | .free _ => .error .notFound
  | .nowhere .isDirectory => .error .notFound
  | .nowhere e => .error e
  | .emptyDevice => .ok ByteArray.empty

/-- The directory with a new content of a file. -/
def put (d : Directory) (path : List String) (content : ByteArray) : Directory :=
  { d with files := (path, content) :: d.files.filter (·.1 ≠ path) }

/-- The directory as a host. -/
def host : Host (StateM Directory) where
  readInput := return (← get).input
  readFile path := return (← get).contentOf path
  writeFile path content := do
    match (← get).target path with
    | .file path => modify (·.put path content.toUTF8); return .ok ()
    | .free path => modify (·.put path content.toUTF8); return .ok ()
    | .directory => return .error .isDirectory
    | .nowhere e => return .error e
    | .emptyDevice => return .ok ()
  print text := modify fun d => { d with printed := d.printed ++ text }
  report text := modify fun d => { d with reported := d.reported ++ text }

/-- Runs the program in a directory. -/
def run (d : Directory) (args : List String) : UInt32 × Directory :=
  (CommandLine.run host args).run d

end Directory

end AgentScript.CommandLine
