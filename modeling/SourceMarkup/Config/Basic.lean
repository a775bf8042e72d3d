import SourceMarkup.Settings.Basic

/-!
# Configuration

The configuration holds the settings that apply when neither a request nor the
command line says otherwise, and whether the clipboard may be used.
-/

namespace SourceMarkup

structure Config where
  highlight : Settings := {}
  clipboardEnabled : Bool := true
  deriving DecidableEq, Repr, Inhabited

end SourceMarkup
