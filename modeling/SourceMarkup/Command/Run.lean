import SourceMarkup.Clipboard.Prepare
import SourceMarkup.Clipboard.Program
import SourceMarkup.Command.Arguments
import SourceMarkup.Config.File
import SourceMarkup.Markup.RawText
import SourceMarkup.Markup.Render
import SourceMarkup.Settings.Report

/-!
# Running commands

A command is run in a world: a disk, the environment, the standard input and the
programs that are installed. What it does is a value too: what it prints, how it
ends, the disk it leaves, and the texts it hands to clipboard programs.

A command that fails prints nothing, with one exception: a command that copies
prints its result even when the clipboard fails.

Two kinds of texts are made by the parser of command lines from the grammar and the
build: the scripts of completions, and the answers to command lines that name no
command. They belong to the world. Nothing is logged, so the verbosity that a command
line asks for makes no difference.
-/

namespace SourceMarkup

/-- Why a command fails, and what caused that, if something else did. -/
structure Failure where
  text : Text
  cause : Option Text := none
  deriving DecidableEq, Repr

namespace Failure

def inset (t : Text) : Text :=
  "    ".toList ++ Text.replaceChar '\n' "\n    ".toList t

def report (failure : Failure) : Text :=
  "Error: ".toList ++ failure.text ++
    (match failure.cause with
      | none => []
      | some cause => "\n\nCaused by:\n".toList ++ inset cause) ++ ['\n']

def ofConfig (error : Config.Error) : Failure :=
  ⟨error.message, error.cause?⟩

def ofClipboard (error : Clipboard.Error) : Failure :=
  ⟨error.message, none⟩

def ofRequest (error : Form.RequestError) : Failure :=
  ⟨"Malformed request body".toList, some error.message⟩

def ofFile (path : Text) (error : DiskError) : Failure :=
  ⟨"File not found or unreadable: ".toList ++ path, some error.message⟩

def ofInput (error : DiskError) : Failure :=
  ⟨"Failed to read stdin".toList, some error.message⟩

def noInput : Failure :=
  ⟨"No input: pass a FILE or pipe data on stdin".toList, none⟩

def noSource : Failure :=
  ⟨"Request has no 'source' parameter".toList, none⟩

def configExists (path : Text) : Failure :=
  ⟨"Config file already exists: ".toList ++ path, none⟩

end Failure

/-- The texts that are made from the grammar of command lines and the build. -/
structure Wording where
  completions : Shell → Text
  /-- The answer to a command line that names no command: help, the version, or what
  is wrong with it. -/
  usage : List Text → UsageError → Text

structure World where
  disk : Disk
  environment : Config.Environment
  /-- The standard input; none if it is a terminal. -/
  input : Option (List UInt8)
  platform : Clipboard.Platform := .linux
  programs : Clipboard.Programs := {}
  wording : Wording

/-- What a command does: what it prints, the failure it ends with or what it tells
the user at the end, the disk it leaves, and the methods whose programs it runs,
with the texts they are given. -/
structure Response where
  output : Text
  ending : Except Failure Text
  disk : Disk
  runs : List (Clipboard.Method × Text)

namespace Response

def code (response : Response) : Nat :=
  match response.ending with
  | .ok _ => 0
  | .error _ => 1

def errors (response : Response) : Text :=
  match response.ending with
  | .ok note => note
  | .error failure => failure.report

end Response

namespace World

def configPath (world : World) : Except Failure Disk.Path :=
  match world.environment.path? with
  | some path => .ok path
  | none => .error (.ofConfig .noFolder)

def config (world : World) : Except Failure Config :=
  world.configPath.bind fun path =>
    (Config.load world.disk path).mapError .ofConfig

/-- The text in a file, or on the standard input if there is no file. -/
def readInput (world : World) : Option Text → Except Failure Text
  | some path => (world.disk.readText path).mapError (.ofFile path)
  | none =>
      match world.input with
      | none => .error .noInput
      | some bytes => (Disk.textOf bytes).mapError .ofInput

def isLineEnd (c : Char) : Bool :=
  c == '\r' || c == '\n'

/-- The request in a file or on the standard input. The ends of lines behind it do
not belong to it. -/
def readRequest (world : World) (file : Option Text) :
    Except Failure Form.Request :=
  (world.readInput file).bind fun body =>
    (Form.Request.parse (Text.trimEnd isLineEnd body)).mapError .ofRequest

/-- The response that prints a text, or fails. -/
def print (world : World) (output : Except Failure Text) : Response :=
  match output with
  | .ok t => ⟨t, .ok [], world.disk, []⟩
  | .error failure => ⟨[], .error failure, world.disk, []⟩

def printLine (world : World) (output : Except Failure Text) : Response :=
  world.print (output.map (· ++ ['\n']))

/-- The answer of the clipboard to a text, and the methods whose programs are run
with it. A clipboard that is not enabled runs none. -/
def copy (world : World) (config : Config) (text : Text) :
    Clipboard.Answer × List Clipboard.Method :=
  if config.clipboardEnabled then world.platform.copy world.programs text
  else (.error .disabled, [])

def printAndCopy (world : World) (config : Config) (line text : Text) : Response :=
  let (answer, methods) := world.copy config text
  { output := line ++ ['\n']
    ending :=
      match answer with
      | .ok copied => .ok (copied.message ++ ['\n'])
      | .error e => .error (.ofClipboard e)
    disk := world.disk
    runs := methods.map fun method => (method, text) }

def raw (world : World) (file : Option Text) : Response :=
  world.printLine ((world.readInput file).map Markup.toRawText)

/-- The settings of options, over those of the configuration. -/
def settingsOf (options : HighlightOptions) (config : Config) : Settings :=
  { profile := options.profile.getD config.highlight.profile
    language := options.language.getD config.highlight.language
    markup := options.markup.getD config.highlight.markup }

def highlight (world : World) (options : HighlightOptions) : Response :=
  let input :=
    world.config.bind fun config =>
      (world.readInput options.file).map fun source => (config, source)
  match input with
  | .error failure => world.print (.error failure)
  | .ok (config, source) =>
      let html := Markup.highlight (settingsOf options config) source
      if options.copy then world.printAndCopy config html html
      else world.printLine (.ok html)

def request (world : World) (file : Option Text) : Response :=
  world.printLine <|
    world.config.bind fun config =>
      (world.readRequest file).bind fun request =>
        match request.source with
        | none => .error .noSource
        | some source =>
            .ok (Markup.highlight (Settings.ofRequest request config.highlight) source)

/-- The raw text of highlighted markup, which is copied. The clipboard is given the
markup while the raw text is prepared; without one, nothing was copied. -/
def copyMarkup (world : World) (file : Option Text) : Response :=
  let input :=
    world.config.bind fun config =>
      (world.readInput file).map fun markup => (config, markup)
  match input with
  | .error failure => world.print (.error failure)
  | .ok (config, markup) =>
      let copy := world.platform.copy world.programs
      let clipboard := if config.clipboardEnabled then some fun text => (copy text).1 else none
      let prepared := Clipboard.prepare (some markup) (some []) clipboard
      { output := prepared.destination.getD [] ++ ['\n']
        ending :=
          match prepared.outcome with
          | .ok (.prepared (some copied)) => .ok (copied.message ++ ['\n'])
          | .ok (.prepared none) => .error (.ofClipboard .disabled)
          | .ok .skipped => .ok []
          | .error e => .error (.ofClipboard e)
        disk := world.disk
        runs := prepared.given.flatMap fun text =>
          (copy text).2.map fun method => (method, text) }

/-- The report of the settings, after the request in a file if there is one. -/
def settings (world : World) (file : Option Text) : Response :=
  world.printLine <|
    world.config.bind fun config =>
      let request : Except Failure Form.Request :=
        match file with
        | none => .ok {}
        | some path => world.readRequest (some path)
      request.map fun request =>
        (Settings.ofRequest request config.highlight).report.pretty 0

def stylesheet (world : World) (profile : Option Profile) : Response :=
  let profile : Except Failure Profile :=
    match profile with
    | some profile => .ok profile
    | none => world.config.map fun config => config.highlight.profile
  world.print (profile.map fun profile => Markup.stylesheet (.ofProfile profile))

def createConfig (world : World) : Response :=
  match world.configPath with
  | .error failure => world.print (.error failure)
  | .ok path =>
      if world.disk.hasEntry path then world.print (.error (.configExists path))
      else
        match ({} : Config).save world.disk path with
        | ⟨disk, some e⟩ => { world.print (.error (.ofConfig e)) with disk }
        | ⟨disk, none⟩ => { world.printLine (.ok ("Created ".toList ++ path)) with disk }

def run (world : World) : Command → Response
  | .raw file => world.raw file
  | .highlight options => world.highlight options
  | .request file => world.request file
  | .copy file => world.copyMarkup file
  | .settings file => world.settings file
  | .stylesheet profile => world.stylesheet profile
  | .config .print => world.print (world.config.map Config.toText)
  | .config .path => world.printLine world.configPath
  | .config .create => world.createConfig
  | .completions shell => world.print (.ok (world.wording.completions shell))

end World

/-- The end of a run of the program: its exit code, what it prints to the standard
output and the standard error, and what it leaves behind. -/
structure Exit where
  code : Nat
  output : Text
  errors : Text
  disk : Disk
  runs : List (Clipboard.Method × Text)

namespace Exit

/-- The end of a run with a command line that names no command. Help and the version
are what was asked for, all else is an error. -/
def ofUsage (world : World) (arguments : List Text) (error : UsageError) : Exit :=
  let text := world.wording.usage arguments error
  { code := error.exitCode
    output := if error.exitCode = 0 then text else []
    errors := if error.exitCode = 0 then [] else text
    disk := world.disk
    runs := [] }

def ofResponse (response : Response) : Exit :=
  ⟨response.code, response.output, response.errors, response.disk, response.runs⟩

end Exit

def World.invoke (world : World) (arguments : List Text) : Exit :=
  match Arguments.read arguments with
  | .error e => .ofUsage world arguments e
  | .ok invocation => .ofResponse (world.run invocation.command)

end SourceMarkup
