import SourceMarkup.Command.Basic

/-!
# Command lines

A command line is read on levels: the program, then a subcommand, then perhaps a
subcommand of that. Each level has its flags, its options with a value and its
place for an argument. Where a level has subcommands, the name of one ends it, and
`help` is one of them. Two hyphens make all later arguments plain ones.

A value is checked only when the argument after it is understood, so an unknown
argument is reported before a bad value in front of it. Flags and options of the
level come after the check.
-/

namespace SourceMarkup

namespace Arguments

inductive Flag
  | verbose
  | copy
  | help
  | version
  deriving DecidableEq, Repr

def Flag.long : Flag → Text
  | verbose => "verbose".toList
  | copy => "copy".toList
  | help => "help".toList
  | version => "version".toList

def Flag.short? : Flag → Option Char
  | verbose => some 'v'
  | copy => none
  | help => some 'h'
  | version => some 'V'

/-- A place for a value: that of an option, or of a plain argument. -/
inductive Slot
  | profile
  | language
  | markup
  | file
  | shell
  deriving DecidableEq, Repr

def Slot.long : Slot → Text
  | profile => Choice.param Profile
  | language => Choice.param Language
  | markup => Choice.param MarkupType
  | file => "file".toList
  | shell => Choice.param Shell

/-- Whether a place admits a value. A choice has to be given by its exact name, and
the name of a file must not be empty. -/
def Slot.admits (slot : Slot) (value : Text) : Bool :=
  match slot with
  | profile => (Choice.ofName? value : Option Profile).isSome
  | language => (Choice.ofName? value : Option Language).isSome
  | markup => (Choice.ofName? value : Option MarkupType).isSome
  | file => !value.isEmpty
  | shell => (Choice.ofName? value : Option Shell).isSome

/-- What may stand on a level. -/
structure Grammar where
  flags : List Flag := [.verbose, .help]
  options : List Slot := []
  argument : Option Slot := none
  subcommands : List Text := []

def helpName : Text := "help".toList

def Grammar.hasSubcommand (grammar : Grammar) (word : Text) : Bool :=
  !grammar.subcommands.isEmpty &&
    (word == helpName || grammar.subcommands.contains word)

/-- What has been read on a level: how often `verbose` was given, whether `copy`
was, the values, and the value that is not yet checked or not yet given. -/
structure Given where
  verbosity : Nat := 0
  copy : Bool := false
  values : List (Slot × Text) := []
  pending : Option (Slot × Option Text) := none

namespace Given

def value? (given : Given) (slot : Slot) : Option Text :=
  given.values.lookup slot

def isAwaiting (given : Given) : Bool :=
  match given.pending with
  | some (_, none) => true
  | _ => false

def store (given : Given) (slot : Slot) (value : Text) : Except UsageError Given :=
  if (given.value? slot).isSome then .error .argumentConflict
  else if slot.admits value then
    .ok { given with values := (slot, value) :: given.values }
  else .error .invalidValue

/-- What has been read with the pending value checked. -/
def settle (given : Given) : Except UsageError Given :=
  match given.pending with
  | none => .ok given
  | some (_, none) => .error .invalidValue
  | some (slot, some value) => { given with pending := none }.store slot value

/-- What has been read with a value pending. -/
def await (given : Given) (slot : Slot) (value : Option Text) :
    Except UsageError Given :=
  given.settle.map fun given => { given with pending := some (slot, value) }

def maxCount : Nat := 255

def raise (given : Given) (flag : Flag) : Except UsageError Given :=
  given.settle.bind fun given =>
    match flag with
    | .verbose => .ok { given with verbosity := min maxCount (given.verbosity + 1) }
    | .copy =>
        if given.copy then .error .argumentConflict
        else .ok { given with copy := true }
    | .help => .error .displayHelp
    | .version => .error .displayVersion

/-- Whether a place is taken by a value or waits for one. -/
def isTaken (given : Given) (slot : Slot) : Bool :=
  (given.value? slot).isSome || given.pending.any fun (pending, _) => pending == slot

end Given

inductive Form
  /-- Two hyphens alone. -/
  | escape
  /-- A name after two hyphens, with the value after an equals sign. -/
  | long (name : Text) (value : Option Text)
  /-- Letters after one hyphen. -/
  | short (letters : Text)
  | plain

/-- The form of an argument. A single hyphen is plain. -/
def formOf (argument : Text) : Form :=
  match argument with
  | ['-', '-'] => .escape
  | '-' :: '-' :: t =>
      let name := t.takeWhile (· != '=')
      match t.dropWhile (· != '=') with
      | [] => .long name none
      | _ :: value => .long name (some value)
  | ['-'] => .plain
  | '-' :: letters => .short letters
  | _ => .plain

def readLong (grammar : Grammar) (given : Given) (name : Text)
    (value : Option Text) : Except UsageError Given :=
  match grammar.flags.find? (·.long == name), value with
  | some flag, none => given.raise flag
  | some _, some _ => .error .tooManyValues
  | none, _ =>
      match grammar.options.find? (·.long == name), value with
      | some slot, none => given.await slot none
      | some slot, some value => given.settle.bind (·.store slot value)
      | none, _ => .error .unknownArgument

def readLetter (grammar : Grammar) (given : Given) (letter : Char) :
    Except UsageError Given :=
  match grammar.flags.find? (·.short? == some letter) with
  | some flag => given.raise flag
  | none => .error .unknownArgument

/-- What is wrong with a plain argument that has no place. -/
def surplusError (grammar : Grammar) (isEscaped : Bool) (argument : Text) :
    UsageError :=
  if grammar.subcommands.isEmpty ∨ (isEscaped ∧ grammar.hasSubcommand argument) then
    .unknownArgument
  else .invalidSubcommand

def readPlain (grammar : Grammar) (isEscaped : Bool) (given : Given)
    (argument : Text) : Except UsageError Given :=
  match grammar.argument with
  | some slot =>
      if given.isTaken slot then
        .error (surplusError grammar isEscaped argument)
      else given.await slot (some argument)
  | none => .error (surplusError grammar isEscaped argument)

/-- What has been read after an argument that is no name of a subcommand. -/
def readArgument (grammar : Grammar) (given : Given) (argument : Text) :
    Except UsageError Given :=
  match formOf argument with
  | .escape => .ok given
  | .long name value => readLong grammar given name value
  | .short letters => letters.foldlM (readLetter grammar) given
  | .plain =>
      match given.pending with
      | some (slot, none) =>
          .ok { given with pending := some (slot, some argument) }
      | _ => readPlain grammar false given argument

/-- What is read on a level, and the subcommand that ends it with the arguments
after that. -/
def readLevel (grammar : Grammar) (isEscaped : Bool) (given : Given) :
    List Text → Except UsageError (Given × Option (Text × List Text))
  | [] => given.settle.map (·, none)
  | argument :: arguments =>
      if isEscaped then
        (readPlain grammar true given argument).bind fun given =>
          readLevel grammar true given arguments
      else if !given.isAwaiting && grammar.hasSubcommand argument then
        .ok (given, some (argument, arguments))
      else
        (readArgument grammar given argument).bind fun given =>
          readLevel grammar (argument == ['-', '-']) given arguments

/-! ### The levels of the program -/

/-- A subcommand without subcommands of its own: its name, what may stand on its
level, and the command that it is. -/
structure Leaf where
  name : Text
  grammar : Grammar
  command : Given → Except UsageError Command

namespace Leaf

def ofFile (name : String) (command : Option Text → Command) : Leaf :=
  ⟨name.toList, { argument := some .file },
    fun given => .ok (command (given.value? .file))⟩

def ofConfig (name : String) (action : ConfigAction) : Leaf :=
  ⟨name.toList, {}, fun _ => .ok (.config action)⟩

def choice? {α : Type} [Choice α] (given : Given) (slot : Slot) : Option α :=
  (given.value? slot).bind Choice.ofName?

def highlight : Leaf :=
  ⟨"highlight".toList,
    { flags := [.verbose, .help, .copy]
      options := [.profile, .language, .markup]
      argument := some .file },
    fun given =>
      .ok (.highlight
        { file := given.value? .file
          profile := choice? given .profile
          language := choice? given .language
          markup := choice? given .markup
          copy := given.copy })⟩

def stylesheet : Leaf :=
  ⟨"stylesheet".toList, { options := [.profile] },
    fun given => .ok (.stylesheet (choice? given .profile))⟩

/-- The subcommand that prints completions, which needs a shell. -/
def completions : Leaf :=
  ⟨"completions".toList, { argument := some .shell },
    fun given =>
      match choice? given .shell with
      | some shell => .ok (.completions shell)
      | none => .error .missingRequiredArgument⟩

/-- The subcommands of the program other than `config`. -/
def ofProgram : List Leaf :=
  [ofFile "raw" .raw, highlight, ofFile "request" .request, ofFile "copy" .copy,
    ofFile "settings" .settings, stylesheet, completions]

def ofConfiguration : List Leaf :=
  [ofConfig "show" .print, ofConfig "path" .path, ofConfig "init" .create]

def find? (leaves : List Leaf) (name : Text) : Option Leaf :=
  List.find? (fun leaf => leaf.name == name) leaves

end Leaf

def configName : Text := "config".toList

def programGrammar : Grammar :=
  { flags := [.verbose, .help, .version]
    subcommands := configName :: Leaf.ofProgram.map Leaf.name }

def configGrammar : Grammar :=
  { subcommands := Leaf.ofConfiguration.map Leaf.name }

/-- The answer to `help` with the names of subcommands, on the level of `config` or
of another subcommand. -/
def helpBelow (isConfig : Bool) : List Text → UsageError
  | [] => .displayHelp
  | word :: words =>
      if isConfig && configGrammar.hasSubcommand word then helpBelow false words
      else .invalidSubcommand

def help : List Text → UsageError
  | [] => .displayHelp
  | word :: words =>
      if programGrammar.hasSubcommand word then helpBelow (word == configName) words
      else .invalidSubcommand

/-- What is missing where a level ends without a subcommand. -/
def missingError (given : Given) : UsageError :=
  if given.verbosity = 0 then .nothingGiven else .missingSubcommand

/-- The verbosity of two levels: that of the inner one, if it is given there. -/
def deeper (outer inner : Nat) : Nat :=
  if inner = 0 then outer else inner

def readLeaf (leaves : List Leaf) (verbosity : Nat) (name : Text)
    (arguments : List Text) : Except UsageError Invocation :=
  match Leaf.find? leaves name with
  | none => .error .invalidSubcommand
  | some leaf =>
      (readLevel leaf.grammar false {} arguments).bind fun (given, _) =>
        (leaf.command given).map fun command =>
          ⟨deeper verbosity given.verbosity, command⟩

def readConfig (verbosity : Nat) (arguments : List Text) :
    Except UsageError Invocation :=
  (readLevel configGrammar false {} arguments).bind fun (given, subcommand) =>
    match subcommand with
    | none => .error (missingError given)
    | some (name, arguments) =>
        if name = helpName then .error (helpBelow true arguments)
        else
          readLeaf Leaf.ofConfiguration (deeper verbosity given.verbosity) name
            arguments

/-- The invocation that a command line writes. -/
def read (arguments : List Text) : Except UsageError Invocation :=
  (readLevel programGrammar false {} arguments).bind fun (given, subcommand) =>
    match subcommand with
    | none => .error (missingError given)
    | some (name, arguments) =>
        if name = helpName then .error (help arguments)
        else if name = configName then readConfig given.verbosity arguments
        else readLeaf Leaf.ofProgram given.verbosity name arguments

end Arguments

end SourceMarkup
