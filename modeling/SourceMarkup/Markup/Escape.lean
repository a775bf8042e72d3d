import SourceMarkup.Text.Basic

/-!
# Escaped text

Text that stands between tags has its ampersands and angle brackets written as
references, so that no part of it can be read as markup.
-/

namespace SourceMarkup

namespace Markup

def escapeChar (c : Char) : Text :=
  if c = '&' then "&amp;".toList
  else if c = '<' then "&lt;".toList
  else if c = '>' then "&gt;".toList
  else [c]

def escape (t : Text) : Text :=
  t.flatMap escapeChar

@[simp] theorem escape_nil : escape [] = [] := rfl

@[simp] theorem escape_cons (c : Char) (cs : Text) :
    escape (c :: cs) = escapeChar c ++ escape cs := rfl

/-- A text may be escaped part by part. -/
@[simp] theorem escape_append (s t : Text) :
    escape (s ++ t) = escape s ++ escape t := by
  simp [escape]

end Markup

end SourceMarkup
