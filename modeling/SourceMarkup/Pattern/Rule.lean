import SourceMarkup.Pattern.Parser
import SourceMarkup.Pattern.Search

/-!
# Replacement rules

A rule replaces every match of a pattern by a fixed text. Rules are applied one
after another, each to what the rule before it left, so their order matters. A
pattern keeps the text that it was written as.
-/

namespace SourceMarkup

/-- A pattern with the text it was written as. -/
structure Pattern where
  source : Text
  regex : Pattern.Regex
  parses : Pattern.parse? source = some regex

namespace Pattern

def ofSource (source : Text) (h : (parse? source).isSome) : Pattern :=
  ⟨source, (parse? source).get h, by simp⟩

def ofSource? (source : Text) : Option Pattern :=
  if h : (parse? source).isSome then some (ofSource source h) else none

end Pattern

/-- A rule that replaces every match of a pattern. -/
structure ReplacementRule where
  pattern : Pattern
  replacement : Text

namespace ReplacementRule

def ofSource? (entry : Text × Text) : Option ReplacementRule :=
  (Pattern.ofSource? entry.1).map fun pattern => ⟨pattern, entry.2⟩

def apply (rule : ReplacementRule) (t : Text) : Text :=
  rule.pattern.regex.replaceAll rule.replacement t

/-- A text after each of several rules in turn. -/
def steps : List ReplacementRule → Text → List Text
  | [], _ => []
  | rule :: rules, t => rule.apply t :: steps rules (rule.apply t)

def applyAll (rules : List ReplacementRule) (t : Text) : Text :=
  rules.foldl (fun t rule => rule.apply t) t

end ReplacementRule

end SourceMarkup
