import SourceMarkup.Text.Blank
import SourceMarkup.Text.LetterCase
import SourceMarkup.Text.Word

/-!
# Sets of characters

The sets that patterns are made of: single characters, ranges and standard
classes, joined by the operations on sets. A folded set also holds every letter
that differs from one of its letters in case only.
-/

namespace SourceMarkup

namespace Pattern

inductive CharSet
  | empty
  | single (c : Char)
  | range (first last : Char)
  | decimal
  | whiteSpace
  | word
  | union (s t : CharSet)
  | inter (s t : CharSet)
  | diff (s t : CharSet)
  | symmDiff (s t : CharSet)
  | compl (s : CharSet)
  | folded (s : CharSet)
  deriving DecidableEq, Repr

namespace CharSet

def contains : CharSet → Char → Bool
  | empty, _ => false
  | single d, c => c == d
  | range first last, c => first ≤ c && c ≤ last
  | decimal, c => Text.isDecimal c
  | whiteSpace, c => Text.isWhiteSpace c
  | word, c => Text.isWord c
  | union s t, c => s.contains c || t.contains c
  | inter s t, c => s.contains c && t.contains c
  | diff s t, c => s.contains c && !t.contains c
  | symmDiff s t, c => s.contains c != t.contains c
  | compl s, c => !s.contains c
  | folded s, c => (Text.caseVariants c).any s.contains

def unions : List CharSet → CharSet
  | [] => empty
  | [s] => s
  | s :: sets => union s (unions sets)

def ofChars (t : Text) : CharSet :=
  unions (t.map single)

def any : CharSet := compl empty

def asciiLower : CharSet := range 'a' 'z'

def asciiUpper : CharSet := range 'A' 'Z'

def asciiDigit : CharSet := range '0' '9'

/-- The classes of ASCII characters that have a name. -/
def namedClasses : List (Text × CharSet) :=
  [("alnum".toList, unions [asciiDigit, asciiUpper, asciiLower]),
    ("alpha".toList, unions [asciiUpper, asciiLower]),
    ("ascii".toList, range '\x00' '\x7f'),
    ("blank".toList, ofChars ['\t', ' ']),
    ("cntrl".toList, unions [range '\x00' '\x1f', single '\x7f']),
    ("digit".toList, asciiDigit),
    ("graph".toList, range '!' '~'),
    ("lower".toList, asciiLower),
    ("print".toList, range ' ' '~'),
    ("punct".toList,
      unions [range '!' '/', range ':' '@', range '[' '\x60', range '\x7b' '~']),
    ("space".toList, ofChars ['\t', '\n', '\x0b', '\x0c', '\r', ' ']),
    ("upper".toList, asciiUpper),
    ("word".toList, unions [asciiDigit, asciiUpper, single '_', asciiLower]),
    ("xdigit".toList, unions [asciiDigit, range 'A' 'F', range 'a' 'f'])]

end CharSet

end Pattern

end SourceMarkup
