import SourceMarkup.Lexeme.Xml
import SourceMarkup.Scan.Basic

/-!
# Scans of XML

The tokens of a source in XML. The rest of a tag after its name is a loop of its
own, which a stray `<` ends without being read.
-/

namespace SourceMarkup

namespace Xml

open Scan

def tagRound (s : Scan) : Round Scan :=
  match s.peek with
  | none => .done s
  | some c =>
      if c = '>' then .done ((s.bump 1).emit .xmlTag s.pos)
      else if c = '/' && s.peekAt 1 == some '>' then
        .done ((s.bump 2).emit .xmlTag s.pos)
      else if c = '"' || c = '\'' then
        .again ((((s.bump 1).eatUntil c).bump 1).emit .xmlAttributeValue s.pos)
      else if c = '<' then .done s
      else if isNameStart c then
        .again ((s.eatWhile isNamePart).emit .xmlAttribute s.pos)
      else .again (s.bump 1)

def scanTag (s : Scan) : Scan :=
  Round.loop left tagRound s

/-- The scan after a construct that `opening` opens and `terminator` ends. -/
def scanDelimited (kind : TokenKind) (opening terminator : Text) (s : Scan) : Scan :=
  ((s.bump opening.length).eatThrough terminator).emit kind s.pos

/-- The scan after a tag, if `<` starts one at the cursor. -/
def scanTagFromName (s : Scan) : Scan :=
  let nameAt := if s.peekAt 1 == some '/' then 2 else 1
  if (s.peekAt nameAt).any isNameStart then
    scanTag (((s.bump nameAt).eatWhile isNamePart).emit .xmlTag s.pos)
  else s.bump 1

def scanMarkup (s : Scan) : Scan :=
  if s.startsWith "<!--".toList then
    scanDelimited .xmlComment "<!--".toList "-->".toList s
  else if s.startsWith "<![CDATA[".toList then
    scanDelimited .xmlCdata "<![CDATA[".toList "]]>".toList s
  else if s.startsWith "<?".toList then
    scanDelimited .xmlProlog "<?".toList "?>".toList s
  else if s.startsWith "<!".toList then
    scanDelimited .xmlProlog "<!".toList ">".toList s
  else scanTagFromName s

def scanEntity (s : Scan) : Scan :=
  let body := (s.bump 1).eatWhile isEntityPart
  if body.peek == some ';' && s.pos + 1 < body.pos then
    (body.bump 1).emit .xmlEntity s.pos
  else body

def scanConstruct (c : Char) (s : Scan) : Scan :=
  if c = '<' then scanMarkup s
  else if c = '&' then scanEntity s
  else s.bump 1

def constructRound (s : Scan) : Round Scan :=
  match s.peek with
  | none => .done s
  | some c => .again (scanConstruct c s)

def tokens (source : Text) : List Token :=
  (Round.loop left constructRound (start source)).tokens.toList

end Xml

end SourceMarkup
