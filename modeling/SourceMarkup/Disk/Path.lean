import SourceMarkup.Text.Basic

/-!
# Paths

A path is a text whose parts are separated by slashes. Slashes in a row count as
one, and a single dot as a part changes nothing unless it starts the path.
-/

namespace SourceMarkup

namespace Disk

abbrev Path := Text

namespace Path

def isAbsolute (path : Path) : Bool :=
  path.head? == some '/'

/-- A path read from its end, without slashes and single dots at its end. -/
def trimTail : Text → Text
  | [] => []
  | c :: cs =>
      if c = '/' then if cs.isEmpty then ['/'] else trimTail cs
      else if c = '.' then
        match cs with
        | '/' :: _ => trimTail cs
        | _ => c :: cs
      else c :: cs

/-- The folder that a path lies in. The empty path and the root lie in none. -/
def parent? (path : Path) : Option Path :=
  match trimTail path.reverse with
  | [] => none
  | ['/'] => none
  | reversed => some (trimTail (reversed.dropWhile (· != '/'))).reverse

/-- A path without the slashes at its end. The root stays. -/
def trimSlashes (path : Path) : Path :=
  match Text.trimEnd (· == '/') path with
  | [] => path.take 1
  | trimmed => trimmed

def join (folder path : Path) : Path :=
  if path.isAbsolute ∨ folder = [] then path
  else if folder.getLast? = some '/' then folder ++ path
  else folder ++ '/' :: path

end Path

end Disk

end SourceMarkup
