import SourceMarkup.Config.Toml
import SourceMarkup.Disk.Basic

/-!
# The configuration file

Where the configuration lies, and how it is loaded and saved. A missing file
stands for the default configuration. Saving makes the folders that the file lies
in. Of a file that is no document only its path is told, and not where it goes wrong.
-/

namespace SourceMarkup

namespace Config

open Disk

/-- What the environment says about the place of the configuration: the file
itself, the user's folder for configurations, and the user's home folder. -/
structure Environment where
  file : Option Path := none
  folder : Option Path := none
  home : Option Path := none

/-- The folder of the user's configurations. One that is not absolute does not
count, and then it is `.config` in the home folder, unless that is empty. -/
def Environment.configFolder? (environment : Environment) : Option Path :=
  (environment.folder.filter Path.isAbsolute).or
    ((environment.home.filter fun home => !home.isEmpty).map
      (Path.join · ".config".toList))

def Environment.path? (environment : Environment) : Option Path :=
  environment.file.or
    (environment.configFolder?.map fun folder =>
      Path.join (Path.join folder "syntaxview".toList) "config.toml".toList)

inductive Error
  | noFolder
  | read (path : Path) (reason : DiskError)
  | write (path : Path) (reason : DiskError)
  /-- The file is not a document, or not one of a configuration. -/
  | invalid (path : Path)
  deriving DecidableEq, Repr

def Error.message : Error → Text
  | noFolder => "Could not determine the user config directory".toList
  | read path reason =>
      "Failed to read ".toList ++ path ++ ": ".toList ++ reason.message
  | write path reason =>
      "Failed to write ".toList ++ path ++ ": ".toList ++ reason.message
  | invalid path => "Invalid config file ".toList ++ path

def Error.cause? : Error → Option Text
  | noFolder => none
  | read _ reason => some reason.message
  | write _ reason => some reason.message
  | invalid _ => none

def load (disk : Disk) (path : Path) : Except Error Config :=
  if disk.hasEntry path then
    match disk.readText path with
    | .error reason => .error (.read path reason)
    | .ok text =>
        match ofText? text with
        | some config => .ok config
        | none => .error (.invalid path)
  else .ok {}

def ensureParent (disk : Disk) (path : Path) : Attempt Error :=
  match path.parent? with
  | none => ⟨disk, none⟩
  | some parent => (disk.ensureFolders parent).mapError (.write parent)

/-- Saves a configuration to a path. The folders made for it stay if that fails. -/
def save (config : Config) (disk : Disk) (path : Path) : Attempt Error :=
  (ensureParent disk path).next fun disk =>
    .once disk ((disk.write path (Text.toBytes config.toText)).mapError (.write path))

end Config

end SourceMarkup
