import SourceMarkup.Form.Request
import SourceMarkup.Settings.Choice

/-!
# Settings

The choices for one highlighting run. Parameters set them one by one. An unknown
parameter or spelling is ignored, so that an old bookmark still shows a page.
-/

namespace SourceMarkup

structure Settings where
  profile : Profile := default
  language : Language := default
  markup : MarkupType := default
  deriving DecidableEq, Repr, Inhabited

namespace Settings

/-- The settings after one parameter, if it names a setting and a value of it. -/
def set? (settings : Settings) (key value : Text) : Option Settings :=
  if key = Choice.param Profile then
    (Choice.parse? value).map fun p => { settings with profile := p }
  else if key = Choice.param Language then
    (Choice.parse? value).map fun l => { settings with language := l }
  else if key = Choice.param MarkupType then
    (Choice.parse? value).map fun m => { settings with markup := m }
  else none

/-- The settings after one parameter, which is ignored if it sets nothing. -/
def apply (settings : Settings) (param : Text × Text) : Settings :=
  (settings.set? param.1 param.2).getD settings

def ofRequest (request : Form.Request) (defaults : Settings) : Settings :=
  request.params.foldl apply defaults

/-- Each parameter with the name of its value, in the order of the parameters'
names. -/
def current (settings : Settings) : List (Text × Text) :=
  [(Choice.param Language, Choice.name settings.language),
    (Choice.param MarkupType, Choice.name settings.markup),
    (Choice.param Profile, Choice.name settings.profile)]

def available : List (Text × List Text) :=
  [(Choice.param Language, (Choice.all : List Language).map Choice.name),
    (Choice.param MarkupType, (Choice.all : List MarkupType).map Choice.name),
    (Choice.param Profile, (Choice.all : List Profile).map Choice.name)]

end Settings

end SourceMarkup
