import SourceMarkup.Text.Basic

/-!
# Token kinds

What a part of a source text is. The kinds have an order, that of their
declaration, and each has a name for use in style sheets.
-/

namespace SourceMarkup

/-- What a part of a source text is. -/
inductive TokenKind
  | keyword
  | lineComment
  | blockComment
  | javadoc
  /-- A tag such as `@param` in a javadoc comment. -/
  | javadocTag
  | stringLiteral
  | charLiteral
  | number
  | annotationName
  /-- The opening of a tag with its name, and the closing of it. -/
  | xmlTag
  | xmlAttribute
  | xmlAttributeValue
  | xmlComment
  | xmlCdata
  /-- A declaration or a processing instruction. -/
  | xmlProlog
  | xmlEntity
  | plain
  deriving DecidableEq, Repr

namespace TokenKind

def all : List TokenKind :=
  [.keyword, .lineComment, .blockComment, .javadoc, .javadocTag, .stringLiteral,
    .charLiteral, .number, .annotationName, .xmlTag, .xmlAttribute,
    .xmlAttributeValue, .xmlComment, .xmlCdata, .xmlProlog, .xmlEntity, .plain]

theorem mem_all (kind : TokenKind) : kind ∈ all := by
  cases kind <;> decide

def cssName : TokenKind → Text
  | keyword => "keyword".toList
  | lineComment => "line-comment".toList
  | blockComment => "block-comment".toList
  | javadoc => "javadoc".toList
  | javadocTag => "javadoc-tag".toList
  | stringLiteral => "string".toList
  | charLiteral => "char".toList
  | number => "number".toList
  | annotationName => "annotation".toList
  | xmlTag => "xml-tag".toList
  | xmlAttribute => "xml-attribute".toList
  | xmlAttributeValue => "xml-attribute-value".toList
  | xmlComment => "xml-comment".toList
  | xmlCdata => "xml-cdata".toList
  | xmlProlog => "xml-prolog".toList
  | xmlEntity => "xml-entity".toList
  | plain => "plain".toList

def isComment : TokenKind → Bool
  | lineComment | blockComment | javadoc | javadocTag => true
  | _ => false

end TokenKind

end SourceMarkup
