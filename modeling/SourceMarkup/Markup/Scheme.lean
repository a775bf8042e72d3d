import SourceMarkup.Style.Scheme

/-!
# Markup schemes

A markup scheme tells what stands in the opening tag of a span: either the style
of its kind itself, or a class that a style sheet gives the style to. A kind
without style has no attributes, and its text stands without a span.
-/

namespace SourceMarkup

namespace Markup

def className (kind : TokenKind) : Text :=
  "sv-".toList ++ kind.cssName

/-- What stands in the opening tags of spans, by kind. -/
abbrev Attributes := TokenKind → Option Text

def inlineAttributes (styles : StyleScheme) : Attributes := fun kind =>
  if (styles.rules kind).isEmpty then none
  else some ("style=\"".toList ++ styles.declarations kind ++ ['"'])

def classAttributes (styles : StyleScheme) : Attributes := fun kind =>
  if (styles.rules kind).isEmpty then none
  else some ("class=\"".toList ++ className kind ++ ['"'])

def attributes (markup : MarkupType) (styles : StyleScheme) : Attributes :=
  match markup with
  | .inline => inlineAttributes styles
  | .classBased => classAttributes styles

def stylesheetLine (styles : StyleScheme) (kind : TokenKind) : Text :=
  ['.'] ++ className kind ++ " \x7b ".toList ++ styles.declarations kind ++
    " \x7d\n".toList

/-- The style sheet of a scheme, with a line for each kind that has a style. -/
def stylesheet (styles : StyleScheme) : Text :=
  styles.supportedKinds.flatMap (stylesheetLine styles)

end Markup

end SourceMarkup
