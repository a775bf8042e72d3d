import SourceMarkup.Text.Digit
import SourceMarkup.Text.Encoding
import SourceMarkup.Token.Basic

/-!
# Scans

A scan goes over the bytes of a source with a cursor and keeps the tokens that it
has found. It tells ASCII bytes apart and no others, so a byte is read as a
character: an ASCII byte as its character, any other byte as some character
beyond ASCII. The cursor may stand inside a character of several bytes, where it
meets such bytes only.

What a scan does again and again is a loop over rounds. A round is a function of
its own, so that what one round does can be told apart from what a loop does.
-/

namespace SourceMarkup

/-- A byte read as a character. -/
def Text.charOfByte (b : UInt8) : Char :=
  Char.ofNat b.toNat

/-- What a round of a loop leaves: a state for the next round, or the last
state. -/
inductive Round (σ : Type)
  | again (s : σ)
  | done (s : σ)

/-- Rounds one after the other, until one is the last. A round that leaves as
much to do as it found would be repeated for ever, and counts as the last. -/
def Round.loop {σ : Type} (left : σ → Nat) (round : σ → Round σ) (s : σ) : σ :=
  match round s with
  | .done t => t
  | .again t => if left t < left s then loop left round t else t
  termination_by left s

/-- A scan of a source: its bytes, the offset of the cursor, and the tokens found
so far. -/
structure Scan where
  bytes : Array UInt8
  pos : Nat
  tokens : Array Token

namespace Scan

def start (source : Text) : Scan :=
  ⟨source.toBytes.toArray, 0, #[]⟩

def left (s : Scan) : Nat :=
  s.bytes.size - s.pos

/-- The byte `n` bytes after the cursor, if there is one. -/
def peekAt (s : Scan) (n : Nat) : Option Char :=
  s.bytes[s.pos + n]?.map Text.charOfByte

def peek (s : Scan) : Option Char :=
  s.peekAt 0

def startsWithAt (s : Scan) (n : Nat) : Text → Bool
  | [] => true
  | c :: cs => s.peekAt n == some c && startsWithAt s (n + 1) cs

def startsWith (s : Scan) (t : Text) : Bool :=
  s.startsWithAt 0 t

def slice (s : Scan) (start stop : Nat) : Text :=
  (s.bytes.extract start stop).toList.map Text.charOfByte

/-- The scan with the cursor `n` bytes further, but not beyond the end. -/
def bump (n : Nat) (s : Scan) : Scan :=
  { s with pos := min (s.pos + n) s.bytes.size }

/-- The scan with one more token, from one offset to another, if there is
anything between them. -/
def emitRange (kind : TokenKind) (start stop : Nat) (s : Scan) : Scan :=
  if start < stop then { s with tokens := s.tokens.push ⟨kind, start, stop⟩ } else s

def emit (kind : TokenKind) (start : Nat) (s : Scan) : Scan :=
  s.emitRange kind start s.pos

def whileRound (p : Char → Bool) (s : Scan) : Round Scan :=
  match s.peek with
  | none => .done s
  | some c => if p c then .again (s.bump 1) else .done s

def eatWhile (p : Char → Bool) (s : Scan) : Scan :=
  Round.loop left (whileRound p) s

def eatUntil (c : Char) (s : Scan) : Scan :=
  s.eatWhile (· != c)

/-- A round in search of the end of a terminator. -/
def throughRound (terminator : Text) (s : Scan) : Round Scan :=
  match s.peek with
  | none => .done s
  | some _ =>
      if s.startsWith terminator then .done (s.bump terminator.length)
      else .again (s.bump 1)

def eatThrough (terminator : Text) (s : Scan) : Scan :=
  Round.loop left (throughRound terminator) s

end Scan

end SourceMarkup
