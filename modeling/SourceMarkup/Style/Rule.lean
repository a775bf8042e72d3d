import SourceMarkup.Token.Kind

/-!
# Style rules

A style rule is one declaration of a style sheet: a property and its value. The
value is written as it is.
-/

namespace SourceMarkup

inductive StyleProperty
  | color
  | backgroundColor
  | fontWeight
  | fontStyle
  | textDecoration
  deriving DecidableEq, Repr

namespace StyleProperty

def all : List StyleProperty :=
  [.color, .backgroundColor, .fontWeight, .fontStyle, .textDecoration]

def cssName : StyleProperty → Text
  | color => "color".toList
  | backgroundColor => "background-color".toList
  | fontWeight => "font-weight".toList
  | fontStyle => "font-style".toList
  | textDecoration => "text-decoration".toList

end StyleProperty

/-- One declaration of a style sheet. -/
structure StyleRule where
  property : StyleProperty
  value : Text
  deriving DecidableEq, Repr

namespace StyleRule

def color (value : String) : StyleRule :=
  ⟨.color, value.toList⟩

def background (value : String) : StyleRule :=
  ⟨.backgroundColor, value.toList⟩

def bold : StyleRule :=
  ⟨.fontWeight, "bold".toList⟩

def italic : StyleRule :=
  ⟨.fontStyle, "italic".toList⟩

def underline : StyleRule :=
  ⟨.textDecoration, "underline".toList⟩

def declaration (rule : StyleRule) : Text :=
  rule.property.cssName ++ [':'] ++ rule.value ++ [';']

def declarations (rules : List StyleRule) : Text :=
  rules.flatMap declaration

end StyleRule

end SourceMarkup
