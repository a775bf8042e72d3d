import SourceMarkup.Lexeme.Language
import SourceMarkup.Markup.Escape
import SourceMarkup.Markup.Scheme
import SourceMarkup.Scan.Language
import SourceMarkup.Settings.Basic
import SourceMarkup.Style.Profile

/-!
# Rendering

Rendering writes lexemes as markup: their text is escaped, and where the kind has
attributes it stands in a span. Plain text never stands in a span. Tokens are
rendered as the lexemes they cut out of a source, if every one of them can be cut
out. A source is highlighted by rendering its cover in a language, and since plain
text stands bare, the lexemes of that language render to the same.
-/

namespace SourceMarkup

namespace Markup

def span (attributes text : Text) : Text :=
  "<span ".toList ++ attributes ++ ['>'] ++ text ++ "</span>".toList

def spanAttributes? (scheme : Attributes) (kind : TokenKind) : Option Text :=
  if kind = .plain then none else scheme kind

def renderLexeme (scheme : Attributes) (lexeme : Lexeme) : Text :=
  match spanAttributes? scheme lexeme.kind with
  | some attributes => span attributes (escape lexeme.text)
  | none => escape lexeme.text

def renderLexemes (scheme : Attributes) (lexemes : List Lexeme) : Text :=
  lexemes.flatMap (renderLexeme scheme)

def lexeme? (source : Text) (token : Token) : Option Lexeme :=
  (token.text? source).map fun text => ⟨token.kind, text⟩

/-- Tokens of a source as markup. There is none if some token cuts no text out of
the source. -/
def render? (scheme : Attributes) (source : Text) (tokens : List Token) :
    Option Text :=
  (tokens.mapM (lexeme? source)).map (renderLexemes scheme)

def schemeOf (settings : Settings) : Attributes :=
  attributes settings.markup (.ofProfile settings.profile)

/-- The cover of a source as markup, if it can be rendered. -/
def highlight? (settings : Settings) (source : Text) : Option Text :=
  render? (schemeOf settings) source (settings.language.cover source)

def highlight (settings : Settings) (source : Text) : Text :=
  renderLexemes (schemeOf settings) (settings.language.lexemes source)

end Markup

end SourceMarkup
