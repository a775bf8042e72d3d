import SourceMarkup.Clipboard.Prepare
import SourceMarkup.Proofs.Clipboard.Attempt

/-!
# What preparing does to the page and the clipboard

Preparing has three effects: on the place for the raw text, on the clipboard, and what it
comes to. If the markup or the place is missing, there is none. Otherwise the place holds
the raw text, whatever it held before and whatever the clipboard answers. The clipboard is
given the markup itself, once, and its answer decides what preparing comes to.

This holds of any clipboard, also of one with a state. For several tools it says that they
are tried in their order with the markup.
-/

namespace SourceMarkup

namespace Clipboard

variable {σ : Type}

/-- How preparing ends with a clipboard in a state: what it comes to, what the place holds,
the texts that the clipboard was given, and its state afterwards. -/
inductive Ends (state : σ) : Option Text → Option Text → Option (Sink σ) →
    (Except Error Preparation × Option Text) × List Text × σ → Prop
  | skipped {source destination : Option Text} {sink : Option (Sink σ)}
      (hmissing : source = none ∨ destination = none) :
      Ends state source destination sink ((.ok .skipped, destination), [], state)
  | alone {markup old : Text} :
      Ends state (some markup) (some old) none
        ((.ok (.prepared none), some (Markup.toRawText markup)), [], state)
  | copied {markup old : Text} {give : Sink σ} {copied : Copied} {later : σ}
      (hgive : give markup state = (.ok copied, later)) :
      Ends state (some markup) (some old) (some give)
        ((.ok (.prepared (some copied)), some (Markup.toRawText markup)), [markup], later)
  | failed {markup old : Text} {give : Sink σ} {e : Error} {later : σ}
      (hgive : give markup state = (.error e, later)) :
      Ends state (some markup) (some old) (some give)
        ((.error e, some (Markup.toRawText markup)), [markup], later)

/-- How preparing ends with several tools as the clipboard: what it comes to, what the
place holds, and what was done with the tools. -/
inductive EndsWithTools (tools : List Tool) : Option Text → Option Text →
    (Except Error Preparation × Option Text) × List Event → Prop
  | skipped {source destination : Option Text}
      (hmissing : source = none ∨ destination = none) :
      EndsWithTools tools source destination ((.ok .skipped, destination), [])
  | copied {markup old : Text} {copied : Copied} {events : List Event}
      (htools : FallsBack tools markup ⟨.ok copied, events⟩) :
      EndsWithTools tools (some markup) (some old)
        ((.ok (.prepared (some copied)), some (Markup.toRawText markup)), events)
  | failed {markup old : Text} {e : Error} {events : List Event}
      (htools : FallsBack tools markup ⟨.error e, events⟩) :
      EndsWithTools tools (some markup) (some old)
        ((.error e, some (Markup.toRawText markup)), events)

theorem ends_prepareWith (source destination : Option Text) (sink : Option (Sink σ))
    (state : σ) :
    Ends state source destination sink
      (prepareWith source destination (sink.map Sink.recorded) ([], state)) := by
  cases source with
  | none => exact .skipped (.inl rfl)
  | some markup =>
      cases destination with
      | none => exact .skipped (.inr rfl)
      | some old =>
          cases sink with
          | none => exact .alone
          | some give =>
              rw [Option.map_some, prepareWith, Sink.recorded]
              rcases hgive : give markup state with ⟨answer, later⟩
              cases answer with
              | ok copied => exact .copied hgive
              | error e => exact .failed hgive

/-- Preparing ends in one way only. -/
theorem Ends.eq_prepareWith {source destination : Option Text} {sink : Option (Sink σ)}
    {state : σ} {result : (Except Error Preparation × Option Text) × List Text × σ}
    (h : Ends state source destination sink result) :
    result = prepareWith source destination (sink.map Sink.recorded) ([], state) := by
  cases h with
  | skipped hmissing =>
      rcases hmissing with rfl | rfl
      · rfl
      · cases source <;> rfl
  | alone => rfl
  | copied hgive => rw [Option.map_some, prepareWith, Sink.recorded, hgive]; rfl
  | failed hgive => rw [Option.map_some, prepareWith, Sink.recorded, hgive]; rfl

theorem endsWithTools_prepareWith (source destination : Option Text) (tools : List Tool) :
    EndsWithTools tools source destination
      (prepareWith source destination (some (Sink.ofTools tools)) []) := by
  cases source with
  | none => exact .skipped (.inl rfl)
  | some markup =>
      cases destination with
      | none => exact .skipped (.inr rfl)
      | some old =>
          have hfalls := fallsBack_attempt tools markup
          rw [prepareWith, Sink.ofTools, List.nil_append]
          rcases hattempt : attempt tools markup with ⟨answer, events⟩
          rw [hattempt] at hfalls
          cases answer with
          | ok copied => exact .copied hfalls
          | error e => exact .failed hfalls

/-- Preparing fills the place with the raw text and gives the markup to the clipboard once,
and its answer decides what preparing comes to; without markup or a place nothing happens.
Of tools as the clipboard it holds that they are tried in their order with the markup. -/
theorem prepare_ends (source destination : Option Text) :
    (∀ (σ : Type) (sink : Option (Sink σ)) (state : σ)
      (result : (Except Error Preparation × Option Text) × List Text × σ),
      prepareWith source destination (sink.map Sink.recorded) ([], state) = result ↔
        Ends state source destination sink result) ∧
      (∀ answers : Option (Text → Answer),
        let prepared := prepare source destination answers
        Ends () source destination (answers.map Sink.ofAnswers)
          ((prepared.outcome, prepared.destination), prepared.given, ())) ∧
      ∀ tools : List Tool, EndsWithTools tools source destination
        (prepareWith source destination (some (Sink.ofTools tools)) []) := by
  refine ⟨fun σ sink state result => ?_, fun answers => ?_,
    endsWithTools_prepareWith source destination⟩
  · refine ⟨fun h => ?_, fun h => h.eq_prepareWith.symm⟩
    rw [← h]
    exact ends_prepareWith source destination sink state
  · have hends := ends_prepareWith source destination (answers.map Sink.ofAnswers) ()
    rw [Option.map_map] at hends
    exact hends

end Clipboard

end SourceMarkup
