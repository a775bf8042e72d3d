import SourceMarkup.Disk.Path
import SourceMarkup.Text.Encoding

/-!
# Disks

A disk holds files and folders. Every entry has a location, the names that lead
to it from the root, and paths are resolved name by name from the root or from the
working folder. What is on the way has to be a folder. Writing a file and making a
folder give a new disk. Changes that can stop halfway are an attempt, which leaves a
disk in any case.
-/

namespace SourceMarkup

inductive DiskError
  | notFound
  | alreadyExists
  | notFolder
  | isFolder
  | notText
  /-- A folder lies in none that could be made. -/
  | noParent
  deriving DecidableEq, Repr

def DiskError.message : DiskError → Text
  | notFound => "No such file or directory (os error 2)".toList
  | alreadyExists => "File exists (os error 17)".toList
  | notFolder => "Not a directory (os error 20)".toList
  | isFolder => "Is a directory (os error 21)".toList
  | notText => "stream did not contain valid UTF-8".toList
  | noParent => "failed to create whole tree".toList

namespace Disk

/-- The names that lead to an entry from the root. -/
abbrev Location := List Text

inductive Entry
  | file (content : List UInt8)
  | folder
  deriving DecidableEq, Repr

end Disk

/-- A disk: the location of the working folder, and the entries other than the
root. -/
structure Disk where
  current : Disk.Location
  entries : List (Disk.Location × Disk.Entry)
  deriving DecidableEq, Repr

namespace Disk

def entry? (disk : Disk) (location : Location) : Option Entry :=
  if location = [] then some .folder else disk.entries.lookup location

def enter (location : Location) (name : Text) : Location :=
  if name = [] ∨ name = ['.'] then location
  else if name = ['.', '.'] then location.dropLast
  else location ++ [name]

/-- The location that names lead to, where something stands at every location but
the last. -/
def walk (disk : Disk) (location : Location) : List Text → Except DiskError Location
  | [] => .ok location
  | name :: names =>
      match disk.entry? location with
      | none => .error .notFound
      | some (.file _) => .error .notFolder
      | some .folder => disk.walk (enter location name) names

def locate (disk : Disk) (path : Path) : Except DiskError Location :=
  if path = [] then .error .notFound
  else
    disk.walk (if path.isAbsolute then [] else disk.current) (Text.splitOn '/' path)

def stat (disk : Disk) (path : Path) : Except DiskError Entry :=
  (disk.locate path).bind fun location =>
    match disk.entry? location with
    | none => .error .notFound
    | some entry => .ok entry

def hasEntry (disk : Disk) (path : Path) : Bool :=
  (disk.stat path).isOk

def read (disk : Disk) (path : Path) : Except DiskError (List UInt8) :=
  (disk.stat path).bind fun
    | .file content => .ok content
    | .folder => .error .isFolder

def textOf (bytes : List UInt8) : Except DiskError Text :=
  match Text.ofBytes? bytes with
  | some t => .ok t
  | none => .error .notText

def readText (disk : Disk) (path : Path) : Except DiskError Text :=
  (disk.read path).bind textOf

def put (disk : Disk) (location : Location) (entry : Entry) : Disk :=
  { disk with
    entries := (location, entry) :: disk.entries.filter fun e => e.1 != location }

/-- The disk after writing a file at a path. A path that ends with a slash is one
of a folder. -/
def write (disk : Disk) (path : Path) (content : List UInt8) :
    Except DiskError Disk :=
  (disk.locate path.trimSlashes).bind fun location =>
    if disk.entry? location = some .folder ∨ path.trimSlashes ≠ path then
      .error .isFolder
    else .ok (disk.put location (.file content))

/-- The disk after making a folder at a path, which may end with slashes. -/
def makeFolder (disk : Disk) (path : Path) : Except DiskError Disk :=
  (disk.locate path.trimSlashes).bind fun location =>
    match disk.entry? location with
    | some _ => .error .alreadyExists
    | none => .ok (disk.put location .folder)

def isFolder (disk : Disk) (path : Path) : Bool :=
  match disk.stat path with
  | .ok .folder => true
  | _ => false

def ensureFolder (disk : Disk) (path : Path) : Except DiskError Disk :=
  match disk.makeFolder path with
  | .ok made => .ok made
  | .error e => if disk.isFolder path then .ok disk else .error e

/-- What comes of changes to a disk that can stop halfway: the disk that is left, and
what stopped them, if something did. -/
structure Attempt (ε : Type) where
  disk : Disk
  error? : Option ε

namespace Attempt

variable {ε ε' : Type}

/-- A single change to a disk, which leaves it as it was if it fails. -/
def once (disk : Disk) : Except ε Disk → Attempt ε
  | .ok changed => ⟨changed, none⟩
  | .error e => ⟨disk, some e⟩

def next (attempt : Attempt ε) (further : Disk → Attempt ε) : Attempt ε :=
  match attempt.error? with
  | none => further attempt.disk
  | some _ => attempt

def mapError (f : ε → ε') (attempt : Attempt ε) : Attempt ε' :=
  ⟨attempt.disk, attempt.error?.map f⟩

end Attempt

/-- Makes a folder at a path and the folders that it lies in. The path has fewer than
`fuel` names. -/
def ensureFoldersFrom (fuel : Nat) (disk : Disk) (path : Path) : Attempt DiskError :=
  match fuel with
  | 0 => ⟨disk, some .noParent⟩
  | fuel + 1 =>
      if path = [] then ⟨disk, none⟩
      else
        match disk.ensureFolder path with
        | .ok made => ⟨made, none⟩
        | .error .notFound =>
            match path.parent? with
            | none => ⟨disk, some .noParent⟩
            | some parent =>
                (ensureFoldersFrom fuel disk parent).next fun disk =>
                  .once disk (disk.ensureFolder path)
        | .error e => ⟨disk, some e⟩

def ensureFolders (disk : Disk) (path : Path) : Attempt DiskError :=
  ensureFoldersFrom (path.length + 1) disk path

end Disk

end SourceMarkup
