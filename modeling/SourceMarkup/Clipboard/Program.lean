import SourceMarkup.Clipboard.Basic

/-!
# Clipboard programs

The tools are programs that read the text from their standard input. Which of
them can be used depends on the system: one belongs to macOS and comes with it,
the others are looked for on Linux, where the program `which` is asked for each of
them. A program that ends with another code than zero has failed.

What `which` finds is told apart from what is installed: it may be missing itself.
-/

namespace SourceMarkup

namespace Clipboard

inductive Platform
  | linux
  | macOS
  | other
  deriving DecidableEq, Repr

/-- The programs that are installed, by name, with the codes that they end with, and
whether `which` can be run and finds a name. -/
structure Programs where
  codes : List (Text × Nat) := []
  which : Text → Bool := fun name => (codes.lookup name).isSome

def Programs.has (programs : Programs) (name : Text) : Bool :=
  (programs.codes.lookup name).isSome

namespace Method

def arguments : Method → List Text
  | pbcopy => []
  | xclip => ["-selection".toList, "clipboard".toList]
  | xsel => ["--clipboard".toList, "--input".toList]
  | wlCopy => []

def commandLine (method : Method) : Text :=
  method.name ++ method.arguments.flatMap (' ' :: ·)

def platform : Method → Platform
  | pbcopy => .macOS
  | _ => .linux

/-- Whether a method is worth trying. The tool of macOS is part of the system. -/
def isAvailable (platform : Platform) (programs : Programs) (method : Method) :
    Bool :=
  method.platform == platform && (method == .pbcopy || programs.which method.name)

def outcome (programs : Programs) (method : Method) : Outcome :=
  match programs.codes.lookup method.name with
  | none => .notFound
  | some 0 => .accepted
  | some (_ + 1) => .failed (method.name ++ " failed".toList)

def tool (platform : Platform) (programs : Programs) (method : Method) : Tool :=
  ⟨method, method.isAvailable platform programs, method.outcome programs⟩

end Method

/-- The methods of a system, in the order to try them. -/
def Platform.methods : Platform → List Method
  | linux => [.xclip, .xsel, .wlCopy]
  | macOS => [.pbcopy]
  | other => []

def Platform.tools (platform : Platform) (programs : Programs) : List Tool :=
  platform.methods.map (·.tool platform programs)

/-- Copying a text with the tools of a system: the answer, and the methods whose
programs are run with the text. Of those that are tried, one that is not installed
cannot be started. -/
def Platform.copy (platform : Platform) (programs : Programs) (text : Text) :
    Answer × List Method :=
  let tools := platform.tools programs
  if platform = .other then (.error .unsupportedPlatform, [])
  else
    (Clipboard.copy tools text,
      (((platform.methods.zip (asked tools)).filter Prod.snd).map Prod.fst).filter
        fun method => programs.has method.name)

end Clipboard

end SourceMarkup
