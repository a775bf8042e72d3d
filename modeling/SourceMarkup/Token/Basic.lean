import SourceMarkup.Token.Kind

/-!
# Tokens and covers

A token is a part of a source text, given by byte offsets. Nothing keeps its
offsets in order or inside a text, so its text may not exist. `cover` completes a
list of tokens to a cover of a text: it drops a token that starts before the end
of the one before it, that ends beyond the text or that is empty, and fills the
gaps with plain tokens.
-/

namespace SourceMarkup

/-- A part of a source text, from one byte offset to another. -/
structure Token where
  kind : TokenKind
  start : Nat
  stop : Nat
  deriving DecidableEq, Repr

namespace Token

def isEmpty (token : Token) : Bool :=
  token.start == token.stop

/-- The number of bytes of a token, if it does not end before it starts. -/
def length? (token : Token) : Option Nat :=
  if token.start ≤ token.stop then some (token.stop - token.start) else none

def text? (token : Token) (source : Text) : Option Text :=
  source.slice? token.start token.stop

/-- The plain token between two offsets, if there is anything between them. -/
def gap (start stop : Nat) : List Token :=
  if start < stop then [⟨.plain, start, stop⟩] else []

/-- Whether a token has no place in the rest of a text that starts at `cursor`
and ends at `size`. -/
def isMisplaced (cursor size : Nat) (token : Token) : Bool :=
  token.start < cursor || size < token.stop || token.isEmpty

def coverFrom (size cursor : Nat) : List Token → List Token
  | [] => gap cursor size
  | token :: tokens =>
      if isMisplaced cursor size token then coverFrom size cursor tokens
      else gap cursor token.start ++ token :: coverFrom size token.stop tokens

/-- The cover of a text of `size` bytes. -/
def cover (size : Nat) (tokens : List Token) : List Token :=
  coverFrom size 0 tokens

end Token

end SourceMarkup
