import SourceMarkup.Lexeme.Java
import SourceMarkup.Scan.Basic

/-!
# Scans of Java

The tokens of a source in Java. Every loop stops at the end of the source, so a
comment or a literal that is left open makes a token too. A backslash in a
literal skips the byte after it, whichever it is.
-/

namespace SourceMarkup

namespace Java

open Scan

def quotedRound (quote : Char) (s : Scan) : Round Scan :=
  match s.peek with
  | none => .done s
  | some c =>
      if c = '\\' then .again (s.bump 2)
      else if c = '\n' then .done s
      else if c = quote then .done (s.bump 1)
      else .again (s.bump 1)

def scanQuoted (quote : Char) (s : Scan) : Scan :=
  Round.loop left (quotedRound quote) (s.bump 1)

def textBlockRound (s : Scan) : Round Scan :=
  match s.peek with
  | none => .done s
  | some c =>
      if c = '\\' then .again (s.bump 2)
      else if s.startsWith blockQuotes then .done (s.bump 3)
      else .again (s.bump 1)

def scanTextBlock (s : Scan) : Scan :=
  Round.loop left textBlockRound (s.bump 3)

def isSign (c : Char) : Bool :=
  c == '+' || c == '-'

def numberRound (isExponent : Char → Bool) (s : Scan) : Round Scan :=
  match s.peek with
  | none => .done s
  | some c =>
      if isExponent c && (s.peekAt 1).any isSign then .again (s.bump 2)
      else if isNumberPart c then .again (s.bump 1)
      else .done s

def scanNumber (s : Scan) : Scan :=
  if s.startsWith "0x".toList || s.startsWith "0X".toList then
    Round.loop left (numberRound isHexExponent) (s.bump 2)
  else Round.loop left (numberRound isDecimalExponent) s

/-- Whether a tag may start at the cursor, from the byte before it. -/
def atTagPosition (s : Scan) : Bool :=
  0 < s.pos && (s.slice (s.pos - 1) s.pos).any admitsTag

/-- A round in a javadoc comment. The offset is the one where the part without
tags begins that the cursor stands in. -/
def javadocRound : Scan × Nat → Round (Scan × Nat)
  | (s, part) =>
      match s.peek with
      | none => .done (s, part)
      | some c =>
          if s.startsWith "*/".toList then .done (s.bump 2, part)
          else if c = '@' && atTagPosition s &&
              (s.peekAt 1).any Text.isAsciiLetter then
            let tag := ((s.emitRange .javadoc part s.pos).bump 1).eatWhile
              Text.isAsciiAlnum
            .again (tag.emit .javadocTag s.pos, tag.pos)
          else .again (s.bump 1, part)

def scanJavadoc (s : Scan) : Scan :=
  let (t, part) := Round.loop (fun state => state.1.left) javadocRound
    (s.bump 3, s.pos)
  t.emit .javadoc part

/-- The scan after an annotation. The declaration of an annotation type starts in
the same way. -/
def scanAnnotation (s : Scan) : Scan :=
  let name := (s.bump 1).eatWhile isIdentifierPart
  let kind : TokenKind :=
    if name.slice s.pos name.pos = "@interface".toList then .keyword
    else .annotationName
  name.emit kind s.pos

def scanWord (s : Scan) : Scan :=
  let word := s.eatWhile isIdentifierPart
  if keywords.contains (word.slice s.pos word.pos) then word.emit .keyword s.pos
  else word

def scanConstruct (c : Char) (s : Scan) : Scan :=
  if c = '/' && s.startsWith "//".toList then
    (s.eatUntil '\n').emit .lineComment s.pos
  else if c = '/' && s.startsWith "/**".toList && !s.startsWith "/**/".toList then
    scanJavadoc s
  else if c = '/' && s.startsWith "/*".toList then
    ((s.bump 2).eatThrough "*/".toList).emit .blockComment s.pos
  else if c = '"' && s.startsWith blockQuotes then
    (scanTextBlock s).emit .stringLiteral s.pos
  else if c = '"' then (scanQuoted '"' s).emit .stringLiteral s.pos
  else if c = '\'' then (scanQuoted '\'' s).emit .charLiteral s.pos
  else if Text.isAsciiDigit c then (scanNumber s).emit .number s.pos
  else if c = '.' && (s.peekAt 1).any Text.isAsciiDigit then
    (scanNumber s).emit .number s.pos
  else if c = '@' && (s.peekAt 1).any isIdentifierStart then scanAnnotation s
  else if isIdentifierStart c then scanWord s
  else s.bump 1

def constructRound (s : Scan) : Round Scan :=
  match s.peek with
  | none => .done s
  | some c => .again (scanConstruct c s)

def tokens (source : Text) : List Token :=
  (Round.loop left constructRound (start source)).tokens.toList

end Java

end SourceMarkup
