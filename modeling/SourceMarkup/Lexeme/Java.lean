import SourceMarkup.Lexeme.Basic
import SourceMarkup.Text.Digit

/-!
# Lexemes of Java

The lexer knows comments, literals, annotations and reserved words. `constructs`
cuts a source into them and takes a javadoc comment as a whole; `lexemes` also
sets off the tags in such comments. A comment or a text block that is left open
reaches to the end of the source, any other literal to the end of its line.
-/

namespace SourceMarkup

namespace Java

open Lexeme

/-- The reserved words, with the literals that are words. -/
def keywords : List Text :=
  ["abstract", "assert", "boolean", "break", "byte", "case", "catch", "char",
    "class", "const", "continue", "default", "do", "double", "else", "enum",
    "extends", "false", "final", "finally", "float", "for", "goto", "if",
    "implements", "import", "instanceof", "int", "interface", "long", "native",
    "new", "null", "package", "private", "protected", "public", "return",
    "short", "static", "strictfp", "super", "switch", "synchronized", "this",
    "throw", "throws", "transient", "true", "try", "void", "volatile",
    "while"].map String.toList

def isIdentifierStart (c : Char) : Bool :=
  Text.isAsciiLetter c || c == '_' || c == '$' || Text.isBeyondAscii c

def isIdentifierPart (c : Char) : Bool :=
  isIdentifierStart c || Text.isAsciiDigit c

/-- The length of a literal after its opening quote. It ends with the next quote
that no backslash precedes, or before the end of the line. -/
def quotedLength (quote : Char) : Text → Nat
  | [] => 0
  | c :: cs =>
      if c = '\\' then
        match cs with
        | [] => 1
        | _ :: ds => quotedLength quote ds + 2
      else if c = '\n' then 0
      else if c = quote then 1
      else quotedLength quote cs + 1

def blockQuotes : Text := ['"', '"', '"']

/-- The length of a text block after its opening quotes. It ends with the next
three quotes that no backslash precedes. -/
def textBlockLength : Text → Nat
  | [] => 0
  | c :: cs =>
      if c = '\\' then
        match cs with
        | [] => 1
        | _ :: ds => textBlockLength ds + 2
      else if blockQuotes.isPrefixOf (c :: cs) then blockQuotes.length
      else textBlockLength cs + 1

/-- Whether a character may stand in a number wherever it stands. -/
def isNumberPart (c : Char) : Bool :=
  Text.isAsciiAlnum c || c == '_' || c == '.'

def startsWithSign : Text → Bool
  | '+' :: _ => true
  | '-' :: _ => true
  | _ => false

/-- The length of the rest of a number. A sign belongs to it directly after an
exponent letter. -/
def numberLength (isExponent : Char → Bool) : Text → Nat
  | [] => 0
  | c :: cs =>
      if isExponent c && startsWithSign cs then
        match cs with
        | [] => 1
        | _ :: ds => numberLength isExponent ds + 2
      else if isNumberPart c then numberLength isExponent cs + 1
      else 0

def isDecimalExponent (c : Char) : Bool :=
  c == 'e' || c == 'E'

def isHexExponent (c : Char) : Bool :=
  c == 'p' || c == 'P'

def numberTailLength (c : Char) (cs : Text) : Nat :=
  match cs with
  | 'x' :: ds =>
      if c = '0' then numberLength isHexExponent ds + 1
      else numberLength isDecimalExponent cs
  | 'X' :: ds =>
      if c = '0' then numberLength isHexExponent ds + 1
      else numberLength isDecimalExponent cs
  | _ => numberLength isDecimalExponent cs

/-- Whether a comment is a javadoc comment, from what follows its opening. -/
def isJavadocBody : Text → Bool
  | ['*'] => true
  | '*' :: c :: _ => c != '/'
  | _ => false

/-- The kind of the construct that starts with `c`, and how many characters of
`cs` belong to it. -/
def construct (c : Char) (cs : Text) : TokenKind × Nat :=
  if c = '/' then
    match cs with
    | '/' :: _ => (.lineComment, runLength (· != '\n') cs)
    | '*' :: ds =>
        (if isJavadocBody ds then .javadoc else .blockComment,
          throughLength ['*', '/'] ds + 1)
    | _ => (.plain, 0)
  else if c = '"' then
    match cs with
    | '"' :: '"' :: ds => (.stringLiteral, textBlockLength ds + 2)
    | _ => (.stringLiteral, quotedLength '"' cs)
  else if c = '\'' then (.charLiteral, quotedLength '\'' cs)
  else if Text.isAsciiDigit c then (.number, numberTailLength c cs)
  else if c = '.' && cs.head?.any Text.isAsciiDigit then
    (.number, numberLength isDecimalExponent cs)
  else if c = '@' && cs.head?.any isIdentifierStart then
    let name := cs.takeWhile isIdentifierPart
    (if name = "interface".toList then .keyword else .annotationName, name.length)
  else if isIdentifierStart c then
    let rest := cs.takeWhile isIdentifierPart
    (if keywords.contains (c :: rest) then .keyword else .plain, rest.length)
  else (.plain, 0)

/-- The constructs of a source, with every javadoc comment as a whole. -/
def constructs : Text → List Lexeme
  | [] => []
  | c :: cs =>
      let (kind, n) := construct c cs
      ⟨kind, c :: cs.take n⟩ :: constructs (cs.drop n)
  termination_by source => source.length
  decreasing_by simp only [List.length_cons, List.length_drop]; omega

def admitsTag (c : Char) : Bool :=
  c == ' ' || c == '\t' || c == '*' || c == '\n' || c == '{'

/-- Whether a tag starts with `c`, between `previous` and `cs`. -/
def startsTag (previous c : Char) (cs : Text) : Bool :=
  c == '@' && admitsTag previous && cs.head?.any Text.isAsciiLetter

/-- The javadoc lexeme of a part between tags, if there is anything in it. -/
def javadocPart (t : Text) : List Lexeme :=
  if t.isEmpty then [] else [⟨.javadoc, t⟩]

/-- The part of a javadoc comment before its next tag, and the lexemes from that
tag on. The text follows the character `previous`. -/
def splitTags (previous : Char) : Text → Text × List Lexeme
  | [] => ([], [])
  | c :: cs =>
      if startsTag previous c cs then
        let n := runLength Text.isAsciiAlnum cs
        let (part, rest) := splitTags ((cs.take n).getLastD c) (cs.drop n)
        ([], ⟨.javadocTag, c :: cs.take n⟩ :: (javadocPart part ++ rest))
      else
        let (part, rest) := splitTags c cs
        (c :: part, rest)
  termination_by t => t.length
  decreasing_by all_goals simp only [List.length_cons, List.length_drop]; omega

def splitJavadoc (lexeme : Lexeme) : List Lexeme :=
  if lexeme.kind = .javadoc then
    let (part, rest) := splitTags '/' lexeme.text
    javadocPart part ++ rest
  else [lexeme]

def lexemes (source : Text) : List Lexeme :=
  (constructs source).flatMap splitJavadoc

end Java

end SourceMarkup
