import RayScene.Render.Command
/-!
The command line: reads a project and its settings, and carries the files of a session from the disk
to a file store and back. It starts no program, so a renderer that is asked for cannot be launched.
-/
set_option autoImplicit false

namespace RayScene.CommandLine

def fail (message : String) : IO UInt32 := do
  IO.eprintln message
  return 1

def text? (path : String) : IO (Option String) := do
  try return some (← IO.FS.readFile path) catch _ => return none

def gather (paths : OutputPaths) (executable : String) : IO FileStore := do
  let here ← IO.currentDir
  let mut store : FileStore := ⟨[], (here.toString.splitOn "/").filter (· ≠ "")⟩
  if ← (here / paths.directory).isDir then
    store := store.makeDirectories (store.spelled paths.directory)
  for file in executable :: OutputFile.all.map paths.path do
    try store := store.makeFile file (← IO.FS.readBinFile file) catch _ => pure ()
  return store

/-- Brings the files of the session on disk to where the store has them. -/
def settle (paths : OutputPaths) (before after : FileStore) : IO Unit := do
  for file in OutputFile.all.map paths.path do
    match before.at? (before.spelled file), after.at? (after.spelled file) with
    | some (.file _), none => IO.FS.removeFile file
    | old, some (.file content) =>
      match old with
      | some (.file same) => if same != content then IO.FS.writeBinFile file content
      | _ => IO.FS.writeBinFile file content
    | _, _ => pure ()

def run (command : Command) : IO UInt32 := do
  let some project ← text? command.project | fail ("i/o error on " ++ command.project)
  let some settings ← text? command.settings | fail ("i/o error on " ++ command.settings)
  match Project.load project, Settings.load? settings with
  | .error e, _ => fail e.message
  | .ok _, none => fail LoadError.malformed.message
  | .ok p, some s =>
    let before ← gather s.paths s.renderer.executable
    let session := Rendering.project (fun _ _ _ _ => none) p s command.render
    let (outcome, site) := session.run.run ⟨before, []⟩
    settle s.paths before site.files
    match outcome with
    | .error e => fail e.message
    | .ok outcome =>
      match outcome.report? (s.paths.path .errorLog) with
      | none => return 0
      | some report => fail report

end RayScene.CommandLine

def main (arguments : List String) : IO UInt32 := do
  match RayScene.Command.ofArguments? arguments with
  | some command => RayScene.CommandLine.run command
  | none => do
    IO.eprintln RayScene.Command.usage
    return 2
