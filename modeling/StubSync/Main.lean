/-
The program: it reads the environment and the checkout, carries out a session
and shows what the session gives.

No transport is part of this program yet, so every request finds no server.
-/
import StubSync.Session
import Std.Time.DateTime.Timestamp

namespace StubSync

namespace Program

/-- The names of the variables that a session looks at. -/
def environmentNames : List String :=
  CommandLine.Setting.all.filterMap CommandLine.Setting.environmentName? ++
    ["CLICOLOR_FORCE", "NO_COLOR", "CLICOLOR"]

/-- The values of the variables that are set. -/
def environment : IO (String → Option String) := do
  let found ← environmentNames.filterMapM fun name => do
    return (← IO.getEnv name).map fun value => (name, value)
  return fun name => found.lookup name

/-- The system's reason for an error. -/
def reason : IO.Error → String
  | .permissionDenied _ code details => s!"{details} (os error {code})"
  | error => toString error

/-- What a name in the directory of stub packages stands for: a directory with
no more than its metadata file. -/
def stub (entry : IO.FS.DirEntry) : IO (FileName × FileNode) := do
  let metadata := entry.path / Path.metadataFile
  if !(← metadata.pathExists) then return (entry.fileName, .directory [])
  let node ←
    if ← metadata.isDir then pure (FileNode.directory [])
    else
      try
        pure (FileNode.file (← IO.FS.readBinFile metadata))
      catch error => pure (FileNode.locked (reason error))
  return (entry.fileName, .directory [(Path.metadataFile, node)])

/-- What a path stands for, if it is there; `inside` looks into a
directory. -/
def node? (path : String) (inside : IO FileNode) : IO (Option FileNode) := do
  try
    if ← (← IO.FS.realPath path).isDir then return some (← inside)
    else return some (.file .empty)
  catch _ => return none

/-- A directory with the one entry of a name, if there is such an entry. -/
def holding (name : String) (node : Option FileNode) : FileNode :=
  .directory (node.toList.map fun node => (FileName.ofText name, node))

/-- The stub packages of a checkout. -/
def stubs (path : String) : IO FileNode := do
  let entries ← (← IO.FS.realPath path).readDir
  return .directory (← entries.toList.mapM stub)

/-- As much of the tree of files as a session over a checkout looks at. -/
def files (root : String) : IO Files := do
  let here := Path.parts (← IO.currentDir).toString
  let path := if root.startsWith "/" then Path.parts root else here ++ Path.parts root
  let stubsPath := Path.join root Path.stubsDirectory
  let inside := do
    return holding Path.stubsDirectory (← node? stubsPath (stubs stubsPath))
  match ← node? root inside with
  | none => return { here }
  | some node =>
      let tree := FileNode.insert node (Path.resolved path) (.directory [])
      return { top := FileNode.withDirectories here tree, here }

/-- The time now. -/
def now : IO Instant := do
  let duration := (← Std.Time.Timestamp.now).val
  return ⟨duration.second.val, duration.nano.val.toNat⟩

/-- Answer the questions of a session. -/
def answer {α : Type} : Session.Exchange α → IO α
  | .done result => return result
  | .ask (.web question) next => answer (next (Http.offline question ()).1)
  | .ask .now next => do answer (next (← now))

end Program

end StubSync

open StubSync in
/-- Carry out one session. -/
def main (words : List String) : IO UInt32 := do
  let environment ← Program.environment
  let files ←
    match CommandLine.read words environment with
    | .ok arguments => Program.files arguments.root
    | .error _ => pure {}
  let toTerminal ← (← IO.getStdout).isTty
  let finish ← Program.answer (Session.run { words, environment, files, toTerminal })
  IO.print finish.output
  for note in finish.notes do
    IO.eprintln note
  return finish.exitCode.toUInt32
