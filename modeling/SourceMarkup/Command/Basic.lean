import SourceMarkup.Settings.Choice

/-!
# Commands

What the command line program can be asked to do, and how a command line can fail
to ask for it.
-/

namespace SourceMarkup

inductive Shell
  | bash
  | elvish
  | fish
  | powershell
  | zsh
  deriving DecidableEq, Repr

instance : Choice Shell where
  param := "shell".toList
  all := [.bash, .elvish, .fish, .powershell, .zsh]
  name
    | .bash => "bash".toList
    | .elvish => "elvish".toList
    | .fish => "fish".toList
    | .powershell => "powershell".toList
    | .zsh => "zsh".toList

inductive ConfigAction
  | print
  | path
  | create
  deriving DecidableEq, Repr

/-- How to highlight a source: choices that are not made are left to the
configuration. -/
structure HighlightOptions where
  file : Option Text := none
  profile : Option Profile := none
  language : Option Language := none
  markup : Option MarkupType := none
  copy : Bool := false
  deriving DecidableEq, Repr

/-- What the program is asked to do. Where a file may be given, the standard input
is read without one. -/
inductive Command
  /-- Turn highlighted markup into raw text. -/
  | raw (file : Option Text)
  | highlight (options : HighlightOptions)
  | request (file : Option Text)
  /-- Copy highlighted markup and print its raw text. -/
  | copy (file : Option Text)
  /-- Print the settings, after a request if there is one. -/
  | settings (file : Option Text)
  | stylesheet (profile : Option Profile)
  | config (action : ConfigAction)
  | completions (shell : Shell)
  deriving DecidableEq, Repr

def Command.file? : Command → Option Text
  | raw file => file
  | highlight options => options.file
  | request file => file
  | copy file => file
  | settings file => file
  | _ => none

/-- A command, with how much is asked to be logged. -/
structure Invocation where
  verbosity : Nat
  command : Command
  deriving DecidableEq, Repr

/-- What a command line asks for or does wrong instead of naming a command. -/
inductive UsageError
  | displayHelp
  | displayVersion
  | nothingGiven
  | missingSubcommand
  | invalidSubcommand
  | unknownArgument
  | invalidValue
  | tooManyValues
  | argumentConflict
  | missingRequiredArgument
  deriving DecidableEq, Repr

/-- The exit code for a command line without a command. Asking for help or for the
version is no error. -/
def UsageError.exitCode : UsageError → Nat
  | displayHelp => 0
  | displayVersion => 0
  | _ => 2

end SourceMarkup
