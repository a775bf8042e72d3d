import SourceMarkup.Pattern.CharSet

/-!
# Patterns

A pattern is a regular expression over characters with anchors. Its choices are
ordered: of two alternatives the first is preferred, a greedy repetition prefers
one more round and a lazy one prefers to stop. `oneOrMore` is the one unbounded
repetition; the others are written with it. `more` is what is left of it after a
round: further rounds, of which each reads at least one character.
-/

namespace SourceMarkup

namespace Pattern

/-- A condition on a place between two characters. -/
inductive Anchor
  | textStart
  | textEnd
  | lineStart
  | lineEnd
  | wordEdge
  | notWordEdge
  | wordStart
  | wordEnd
  deriving DecidableEq, Repr

/-- A place in a text: the characters before and after it, where there are any. -/
structure Place where
  before : Option Char
  after : Option Char
  deriving DecidableEq, Repr

def Place.wordBefore (place : Place) : Bool :=
  place.before.any Text.isWord

def Place.wordAfter (place : Place) : Bool :=
  place.after.any Text.isWord

def Anchor.holds (anchor : Anchor) (place : Place) : Bool :=
  match anchor with
  | textStart => place.before.isNone
  | textEnd => place.after.isNone
  | lineStart => place.before.all (· == '\n')
  | lineEnd => place.after.all (· == '\n')
  | wordEdge => place.wordBefore != place.wordAfter
  | notWordEdge => place.wordBefore == place.wordAfter
  | wordStart => !place.wordBefore && place.wordAfter
  | wordEnd => place.wordBefore && !place.wordAfter

/-- A regular expression with ordered choices. -/
inductive Regex
  /-- Reads nothing. -/
  | empty
  | one (set : CharSet)
  /-- Reads nothing, where a condition holds. -/
  | anchor (condition : Anchor)
  | seq (first second : Regex)
  /-- Reads either, and the first by preference. -/
  | alt (first second : Regex)
  | oneOrMore (body : Regex) (greedy : Bool)
  | more (body : Regex) (greedy : Bool)
  deriving DecidableEq, Repr

namespace Regex

/-- One after the other, where reading nothing is left out. -/
def andThen (first second : Regex) : Regex :=
  if first = empty then second
  else if second = empty then first
  else seq first second

def seqs : List Regex → Regex
  | [] => empty
  | r :: rs => r.andThen (seqs rs)

def alts : List Regex → Regex
  | [] => empty
  | [r] => r
  | r :: rs => alt r (alts rs)

def optional (body : Regex) (greedy : Bool) : Regex :=
  if greedy then alt body empty else alt empty body

def times (body : Regex) : Nat → Regex
  | 0 => empty
  | n + 1 => body.andThen (times body n)

def atMost (body : Regex) (greedy : Bool) : Nat → Regex
  | 0 => empty
  | n + 1 => optional (body.andThen (atMost body greedy n)) greedy

def repeated (body : Regex) (greedy : Bool) (least : Nat) : Option Nat → Regex
  | some most =>
      (times body least).andThen (atMost body greedy (most - least))
  | none =>
      match least with
      | 0 => optional (oneOrMore body greedy) greedy
      | n + 1 => (times body n).andThen (oneOrMore body greedy)

/-- The number of sets and conditions in a regular expression. -/
def size : Regex → Nat
  | empty => 0
  | one _ => 1
  | anchor _ => 1
  | seq a b => size a + size b
  | alt a b => size a + size b
  | oneOrMore a _ => size a
  | more a _ => size a

end Regex

end Pattern

end SourceMarkup
