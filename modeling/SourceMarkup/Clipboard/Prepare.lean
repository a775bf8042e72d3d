import SourceMarkup.Clipboard.Basic
import SourceMarkup.Markup.RawText

/-!
# Preparing raw source

A page holds highlighted markup and a place for the raw text. Preparing fills the
place, and also hands the markup itself to the clipboard if there is one. If the
markup or the place is missing, nothing happens. A clipboard that fails does not
keep the raw text from its place.

A clipboard may have a state that a text changes, and `prepareWith` tells what becomes of
it. `prepare` is for a clipboard that always gives the same answer to a text.
-/

namespace SourceMarkup

namespace Clipboard

inductive Preparation
  /-- The markup or the place for the raw text was missing. -/
  | skipped
  /-- The place was filled, and the markup copied if there is a clipboard. -/
  | prepared (copied : Option Copied)
  deriving DecidableEq, Repr

/-- The result of preparing: what it came to, what the place for the raw text
holds afterwards, and the texts that the clipboard was given. -/
structure Prepared where
  outcome : Except Error Preparation
  destination : Option Text
  given : List Text

def preparation : Option Answer → Except Error Preparation
  | none => .ok (.prepared none)
  | some (.ok copied) => .ok (.prepared (some copied))
  | some (.error e) => .error e

/-- A clipboard with a state: its answer to a text, and its state afterwards. -/
abbrev Sink (σ : Type) := Text → σ → Answer × σ

/-- Fills the place `destination` from the markup `source`, with a clipboard in a state, if
there is one. The outcome and the place come with the state of the clipboard afterwards. -/
def prepareWith {σ : Type} (source destination : Option Text) (sink : Option (Sink σ))
    (state : σ) : (Except Error Preparation × Option Text) × σ :=
  match source, destination with
  | some markup, some _ =>
      match sink with
      | some give =>
          let (answer, state) := give markup state
          ((preparation (some answer), some (Markup.toRawText markup)), state)
      | none => ((preparation none, some (Markup.toRawText markup)), state)
  | _, _ => ((.ok .skipped, destination), state)

namespace Sink

variable {σ : Type}

def ofAnswers (answers : Text → Answer) : Sink Unit :=
  fun text state => (answers text, state)

/-- Several tools as a clipboard, whose state is what has been done with them. -/
def ofTools (tools : List Tool) : Sink (List Event) :=
  fun text events => ((attempt tools text).answer, events ++ (attempt tools text).events)

/-- A clipboard that also keeps the texts that it is given. -/
def recorded (sink : Sink σ) : Sink (List Text × σ) :=
  fun text (given, state) =>
    let (answer, state) := sink text state
    (answer, given ++ [text], state)

end Sink

/-- Fills the place `destination` from the markup `source`, with a clipboard that
answers to a text, if there is one. -/
def prepare (source destination : Option Text)
    (clipboard : Option (Text → Answer)) : Prepared :=
  let ((outcome, destination), given, _) :=
    prepareWith source destination
      (clipboard.map fun answers => (Sink.ofAnswers answers).recorded) ([], ())
  { outcome, destination, given }

theorem prepare_some (markup old : Text) (clipboard : Option (Text → Answer)) :
    prepare (some markup) (some old) clipboard =
      { outcome := preparation (clipboard.map (· markup))
        destination := some (Markup.toRawText markup)
        given := if clipboard.isSome then [markup] else [] } := by
  cases clipboard <;> rfl

end Clipboard

end SourceMarkup
