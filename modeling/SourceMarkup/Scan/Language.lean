import SourceMarkup.Lexeme.Language
import SourceMarkup.Scan.Java
import SourceMarkup.Scan.Xml

/-!
# Tokens by language

The tokens of a source are those that the scan of its language finds. With plain
tokens in between they make up the cover of the source.
-/

namespace SourceMarkup

namespace Language

def tokens : Language → Text → List Token
  | .java => Java.tokens
  | .xml => Xml.tokens

def cover (language : Language) (source : Text) : List Token :=
  Token.cover source.byteLength (language.tokens source)

end Language

end SourceMarkup
