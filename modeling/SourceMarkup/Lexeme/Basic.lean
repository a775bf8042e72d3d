import SourceMarkup.Token.Basic

/-!
# Lexemes

A lexeme is a part of a source text with its kind. A lexer cuts a source into
lexemes that follow each other without a gap, plain ones included, so the byte
offsets of a lexeme come from the lengths of those before it. The lengths that
the lexers share are counted here, in characters.
-/

namespace SourceMarkup

structure Lexeme where
  kind : TokenKind
  text : Text
  deriving DecidableEq, Repr

namespace Lexeme

def source (lexemes : List Lexeme) : Text :=
  lexemes.flatMap text

/-- The tokens of lexemes that are not plain, where the first lexeme starts at
`offset`. -/
def tokensFrom (offset : Nat) : List Lexeme → List Token
  | [] => []
  | lexeme :: lexemes =>
      let stop := offset + lexeme.text.byteLength
      if lexeme.kind = .plain then tokensFrom stop lexemes
      else ⟨lexeme.kind, offset, stop⟩ :: tokensFrom stop lexemes

def runLength (p : Char → Bool) (t : Text) : Nat :=
  (t.takeWhile p).length

/-- The number of characters through the first occurrence of `terminator`, or of
all characters if there is none. -/
def throughLength (terminator : Text) : Text → Nat
  | [] => 0
  | c :: cs =>
      if terminator.isPrefixOf (c :: cs) then terminator.length
      else throughLength terminator cs + 1

end Lexeme

end SourceMarkup
