import SourceMarkup.Command.Run

/-!
# The program

The command line program: it looks up the files that a command line names, runs
the command on them as a value, prints what comes of it and writes the file that
was created, if one was. It starts no other programs, so no clipboard program
counts as installed.
-/

namespace SourceMarkup

namespace Program

open Disk

/-- The locations on the way to a location, the root left out. -/
def waysTo (location : Location) : List Location :=
  (List.range location.length).map fun n => location.take (n + 1)

def pathOf (location : Location) : String :=
  String.ofList (location.flatMap ('/' :: ·))

/-- The names in a path from the root, dots resolved. -/
def locationOf (path : Path) : Location :=
  (Text.splitOn '/' path).foldl enter []

def look (location : Location) : IO (Option Entry) := do
  let path := (← IO.currentDir) / pathOf location
  if ← path.isDir then return some .folder
  if ← path.pathExists then
    return some (.file (← IO.FS.readBinFile path).toList)
  return none

/-- The disk as far as the given paths and the working folder are concerned. -/
def snapshot (paths : List Path) : IO Disk := do
  let current := locationOf (← IO.currentDir).toString.toList
  let locations := paths.map fun path =>
    if path.isAbsolute then locationOf path
    else (Text.splitOn '/' path).foldl enter current
  let mut entries := []
  for location in ((current :: locations).flatMap waysTo).eraseDups do
    if let some entry ← look location then
      entries := (location, entry) :: entries
  return ⟨current, entries⟩

/-- Makes what a disk holds and another one does not. -/
def create (before after : Disk) : IO Unit := do
  for (location, entry) in after.entries.reverse do
    unless before.entries.contains (location, entry) do
      match entry with
      | .folder => IO.FS.createDir (pathOf location)
      | .file content =>
          IO.FS.writeBinFile (pathOf location) (ByteArray.mk content.toArray)

def environment : IO Config.Environment := do
  let file ← IO.getEnv "SYNTAXVIEW_CONFIG"
  let folder ← IO.getEnv "XDG_CONFIG_HOME"
  let home ← IO.getEnv "HOME"
  return {
    file := file.map String.toList
    folder := folder.map String.toList
    home := home.map String.toList }

def readsInput (command : Command) : Bool :=
  match command with
  | .raw none => true
  | .highlight options => options.file.isNone
  | .request none => true
  | .copy none => true
  | _ => false

/-- The standard input, as far as a command reads it; none if it is a terminal. -/
def inputOf (command : Command) : IO (Option (List UInt8)) := do
  let stdin ← IO.getStdin
  if ← stdin.isTty then return none
  if readsInput command then return some (← stdin.readBinToEnd).toList
  return some []

/-- A short answer to a command line that names no command. There are no scripts of
completions. -/
def wording : Wording where
  completions _ := []
  usage _ error :=
    match error with
    | .displayVersion => "syntaxview 0.2.0\n".toList
    | _ =>
        "Usage: syntaxview [OPTIONS] <COMMAND>\n\nCommands: ".toList ++
          (Arguments.programGrammar.subcommands.flatMap (· ++ [' '])) ++ ['\n']

def worldOf (arguments : List Text) : IO World := do
  let environment ← environment
  let command :=
    match Arguments.read arguments with
    | .ok invocation => invocation.command
    | .error _ => .config .path
  let disk ← snapshot (environment.path?.toList ++ command.file?.toList)
  return { disk, environment, input := ← inputOf command, wording }

end Program

end SourceMarkup

open SourceMarkup in
/-- Runs the program with its command line and gives its exit code. -/
def main (arguments : List String) : IO UInt32 := do
  let arguments := arguments.map String.toList
  let world ← Program.worldOf arguments
  let finish := world.invoke arguments
  Program.create world.disk finish.disk
  IO.print (String.ofList finish.output)
  IO.eprint (String.ofList finish.errors)
  return finish.code.toUInt32
