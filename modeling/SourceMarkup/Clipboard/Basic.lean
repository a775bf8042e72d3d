import SourceMarkup.Text.Basic

/-!
# Copying to the clipboard

A text reaches the clipboard through one of several tools. They are tried in
order: a tool that is not available is passed over, the first one that accepts
the text ends the search, and if none does, the last failure is reported.

`attempt` is the search step by step, with all that is done with the tools. `copy` and
`asked` tell what comes of it: the answer, and which tools are given the text.
-/

namespace SourceMarkup

namespace Clipboard

/-- A way to reach the clipboard, named after its tool. -/
inductive Method
  | pbcopy
  | xclip
  | xsel
  | wlCopy
  deriving DecidableEq, Repr

namespace Method

def all : List Method := [.pbcopy, .xclip, .xsel, .wlCopy]

def name : Method → Text
  | pbcopy => "pbcopy".toList
  | xclip => "xclip".toList
  | xsel => "xsel".toList
  | wlCopy => "wl-copy".toList

end Method

inductive Error
  | noToolAvailable
  /-- A tool failed, and none accepted the text. -/
  | toolFailed (tool : Method) (reason : Text)
  | disabled
  | unsupportedPlatform
  deriving DecidableEq, Repr

def Error.message : Error → Text
  | noToolAvailable =>
      "No clipboard tool available. On Linux, install xclip, xsel, or wl-copy.".toList
  | toolFailed tool reason =>
      "Clipboard tool '".toList ++ tool.name ++ "' failed: ".toList ++ reason
  | disabled => "Clipboard is disabled in the configuration".toList
  | unsupportedPlatform => "Platform not supported (only macOS and Linux)".toList

/-- A text that was copied: the tool that accepted it, and its size in bytes. -/
structure Copied where
  tool : Method
  size : Nat
  deriving DecidableEq, Repr

def Copied.message (copied : Copied) : Text :=
  "Copied highlighted markup (".toList ++ Text.ofNat copied.size ++
    " bytes) to clipboard via ".toList ++ copied.tool.name

abbrev Answer := Except Error Copied

inductive Outcome
  | accepted
  | notFound
  | failed (reason : Text)
  deriving DecidableEq, Repr

/-- A tool: its method, whether it is available, and what it does with a text. -/
structure Tool where
  method : Method
  available : Bool
  outcome : Outcome
  deriving DecidableEq, Repr

def Tool.accepts (tool : Tool) : Bool :=
  tool.available && tool.outcome == .accepted

/-- The error to report after a tool did not accept a text, where `last` was the
error to report before. -/
def Tool.errorAfter (tool : Tool) (last : Error) : Error :=
  match tool.available, tool.outcome with
  | true, .failed reason => .toolFailed tool.method reason
  | _, _ => last

/-- The answer of tools to a text of `size` bytes, where `last` is the error to
report if none of them accepts it or fails. -/
def answerFrom (size : Nat) (last : Error) : List Tool → Answer
  | [] => .error last
  | tool :: tools =>
      if tool.accepts then .ok ⟨tool.method, size⟩
      else answerFrom size (tool.errorAfter last) tools

def copy (tools : List Tool) (text : Text) : Answer :=
  answerFrom text.byteLength .noToolAvailable tools

/-- Which tools are given a text: the available ones, up to the first that accepts
it. -/
def asked : List Tool → List Bool
  | [] => []
  | tool :: tools =>
      if tool.accepts then true :: tools.map fun _ => false
      else tool.available :: asked tools

/-- What is done with a tool, which is told by its position. -/
inductive Event
  | check (position : Nat)
  | give (position : Nat) (text : Text)
  deriving DecidableEq, Repr

/-- An attempt to copy a text: the answer, and all that was done with the tools, in the
order of time. -/
structure Attempt where
  answer : Answer
  events : List Event

def Attempt.after (events : List Event) (attempt : Attempt) : Attempt :=
  { attempt with events := events ++ attempt.events }

def Tool.events (tool : Tool) (position : Nat) (text : Text) : List Event :=
  .check position :: if tool.available then [.give position text] else []

/-- An attempt with tools of which the first one is at `position`, where `last` is the
error to report if none of them accepts the text or fails. -/
def attemptFrom (text : Text) (position : Nat) (last : Error) : List Tool → Attempt
  | [] => ⟨.error last, []⟩
  | tool :: tools =>
      let events := tool.events position text
      if tool.accepts then ⟨.ok ⟨tool.method, text.byteLength⟩, events⟩
      else (attemptFrom text (position + 1) (tool.errorAfter last) tools).after events

def attempt (tools : List Tool) (text : Text) : Attempt :=
  attemptFrom text 0 .noToolAvailable tools

def Event.textFor? (position : Nat) : Event → Option Text
  | check _ => none
  | give p text => if p = position then some text else none

/-- The texts that events give to the tool at a position. -/
def given (position : Nat) (events : List Event) : List Text :=
  events.filterMap (Event.textFor? position)

end Clipboard

end SourceMarkup
