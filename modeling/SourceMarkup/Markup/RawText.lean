import SourceMarkup.Pattern.Rule

/-!
# Raw text

Highlighted markup is turned back into the text that it shows: the tags of spans
are dropped, then the three references of escaped text are replaced, and then the
blanks at both ends are dropped. The ampersand comes after the angle brackets, so
that an escaped reference is not replaced twice. A tag does not reach over the
end of a line.
-/

namespace SourceMarkup

namespace Markup

def spanTagSource : Text :=
  "<span[^\\n\\r\\x\x7b2028\x7d\\x\x7b2029\x7d]*?>|</span>".toList

def leadingBlanksSource : Text :=
  "^[\\s\\x\x7bFEFF\x7d&&[^\\x\x7b85\x7d]]+".toList

def trailingBlanksSource : Text :=
  "[\\s\\x\x7bFEFF\x7d&&[^\\x\x7b85\x7d]]+$".toList

/-- The rules that turn highlighted markup into raw text, in their order. -/
def rawTextRules : List ReplacementRule :=
  [⟨.ofSource spanTagSource (by decide), []⟩,
    ⟨.ofSource "&lt;".toList (by decide), ['<']⟩,
    ⟨.ofSource "&gt;".toList (by decide), ['>']⟩,
    ⟨.ofSource "&amp;".toList (by decide), ['&']⟩,
    ⟨.ofSource leadingBlanksSource (by decide), []⟩,
    ⟨.ofSource trailingBlanksSource (by decide), []⟩]

/-- The text that highlighted markup shows. -/
def toRawText (markup : Text) : Text :=
  ReplacementRule.applyAll rawTextRules markup

end Markup

end SourceMarkup
