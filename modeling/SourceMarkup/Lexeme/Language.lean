import SourceMarkup.Lexeme.Java
import SourceMarkup.Lexeme.Xml
import SourceMarkup.Settings.Choice

/-!
# Lexemes by language

Every language cuts a source into lexemes of its own.
-/

namespace SourceMarkup

namespace Language

def lexemes : Language → Text → List Lexeme
  | .java => Java.lexemes
  | .xml => Xml.lexemes

end Language

end SourceMarkup
