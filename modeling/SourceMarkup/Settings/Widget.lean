import SourceMarkup.Settings.Basic

/-!
# Settings widgets

On the page each setting is a button that shows the current option, with an
arrow beside it that opens and closes the list of all options. Choosing an option
copies its icon and text to the button and its value to the hidden field of the
form.
-/

namespace SourceMarkup

/-- Which way the arrow of a widget points: left while the list is open. -/
inductive Direction
  | left
  | right
  deriving DecidableEq, Repr

instance : Inhabited Direction := ⟨.right⟩

def Direction.toggled : Direction → Direction
  | .left => .right
  | .right => .left

@[simp] theorem Direction.toggled_toggled (d : Direction) :
    d.toggled.toggled = d := by
  cases d <;> rfl

/-- How a widget looks: the display of its list, and the image of its arrow. -/
structure ArrowView where
  display : Text
  image : Text
  deriving DecidableEq, Repr

def ArrowView.ofDirection : Direction → ArrowView
  | .left => ⟨"block".toList, "/pic/arrow-left.png".toList⟩
  | .right => ⟨"none".toList, "/pic/arrow-right.png".toList⟩

/-- The option that a widget shows and submits. -/
structure Selector where
  currentIcon : Text := []
  currentAlt : Text := []
  hiddenValue : Text := []
  deriving DecidableEq, Repr

def Selector.choose (icon alt : Text) : Selector :=
  ⟨icon, alt, alt⟩

structure Widget where
  selector : Selector := {}
  direction : Direction := default
  deriving DecidableEq, Repr

namespace Widget

def view (widget : Widget) : ArrowView :=
  .ofDirection widget.direction

def click (widget : Widget) : Widget :=
  { widget with direction := widget.direction.toggled }

def choose (widget : Widget) (icon alt : Text) : Widget :=
  { widget with selector := .choose icon alt }

def iconPath (param value : Text) : Text :=
  "/pic/".toList ++ param ++ ['/'] ++ value ++ ".png".toList

/-- The closed widgets of all settings, in the order of the parameters' names. -/
def ofSettings (settings : Settings) : List (Text × Widget) :=
  settings.current.map fun (param, value) =>
    (param, { selector := .choose (iconPath param value) value })

end Widget

end SourceMarkup
