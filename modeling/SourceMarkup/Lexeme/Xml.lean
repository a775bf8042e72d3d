import SourceMarkup.Lexeme.Basic
import SourceMarkup.Text.Digit

/-!
# Lexemes of XML

The lexer reads in two modes: in the text between tags, and inside a tag, where
it looks for attributes, their values and the end of the tag. A tag that meets
another `<` was never closed, and reading goes on in the text. Comments, character
data sections, declarations and quoted values that are left open reach to the
end of the source.
-/

namespace SourceMarkup

namespace Xml

open Lexeme

/-- Where the lexer stands: between tags or inside one. -/
inductive Mode
  | content
  | tag
  deriving DecidableEq, Repr

def isNameStart (c : Char) : Bool :=
  Text.isAsciiLetter c || c == '_' || c == ':' || Text.isBeyondAscii c

def isNamePart (c : Char) : Bool :=
  Text.isAsciiAlnum c || c == '_' || c == '-' || c == '.' || c == ':' ||
    Text.isBeyondAscii c

def isEntityPart (c : Char) : Bool :=
  Text.isAsciiAlnum c || c == '#'

/-- The rest of a construct that `<` opens with `opening` and that ends with
`terminator`. -/
def delimitedLength (opening terminator cs : Text) : Nat :=
  opening.length + throughLength terminator (cs.drop opening.length)

/-- What `<` starts if it starts a tag or nothing: its kind, how many characters of
`cs` belong to it, and the mode after it. -/
def tagNameStep (cs : Text) : TokenKind × Nat × Mode :=
  match cs with
  | '/' :: ds =>
      if ds.head?.any isNameStart then (.xmlTag, runLength isNamePart ds + 1, .tag)
      else (.plain, 0, .content)
  | _ =>
      if cs.head?.any isNameStart then (.xmlTag, runLength isNamePart cs, .tag)
      else (.plain, 0, .content)

def markupStep (cs : Text) : TokenKind × Nat × Mode :=
  if "!--".toList.isPrefixOf cs then
    (.xmlComment, delimitedLength "!--".toList "-->".toList cs, .content)
  else if "![CDATA[".toList.isPrefixOf cs then
    (.xmlCdata, delimitedLength "![CDATA[".toList "]]>".toList cs, .content)
  else if "?".toList.isPrefixOf cs then
    (.xmlProlog, delimitedLength "?".toList "?>".toList cs, .content)
  else if "!".toList.isPrefixOf cs then
    (.xmlProlog, delimitedLength "!".toList ">".toList cs, .content)
  else tagNameStep cs

def entityStep (cs : Text) : TokenKind × Nat :=
  let n := runLength isEntityPart cs
  if n ≠ 0 ∧ (cs.drop n).head? = some ';' then (.xmlEntity, n + 1)
  else (.plain, n)

def contentStep (c : Char) (cs : Text) : TokenKind × Nat × Mode :=
  if c = '<' then markupStep cs
  else if c = '&' then
    let (kind, n) := entityStep cs
    (kind, n, .content)
  else (.plain, 0, .content)

def tagStep (c : Char) (cs : Text) : TokenKind × Nat × Mode :=
  if c = '>' then (.xmlTag, 0, .content)
  else if c = '/' ∧ cs.head? = some '>' then (.xmlTag, 1, .content)
  else if c = '"' ∨ c = '\'' then
    (.xmlAttributeValue, throughLength [c] cs, .tag)
  else if c = '<' then contentStep c cs
  else if isNameStart c then (.xmlAttribute, runLength isNamePart cs, .tag)
  else (.plain, 0, .tag)

/-- What `c` starts in a mode: its kind, how many characters of `cs` belong to
it, and the mode after it. -/
def step : Mode → Char → Text → TokenKind × Nat × Mode
  | .content => contentStep
  | .tag => tagStep

def lexemesFrom (mode : Mode) : Text → List Lexeme
  | [] => []
  | c :: cs =>
      let (kind, n, next) := step mode c cs
      ⟨kind, c :: cs.take n⟩ :: lexemesFrom next (cs.drop n)
  termination_by source => source.length
  decreasing_by simp only [List.length_cons, List.length_drop]; omega

def lexemes (source : Text) : List Lexeme :=
  lexemesFrom .content source

end Xml

end SourceMarkup
