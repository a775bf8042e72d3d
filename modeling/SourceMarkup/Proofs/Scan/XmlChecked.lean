import SourceMarkup.Proofs.Lexeme.Xml
import SourceMarkup.Proofs.Scan.Checked
import SourceMarkup.Scan.Xml

/-!
# Checked scans of XML

The scan of XML with all its places checked. A stray `<` ends the loop over a tag where it
stands, so this loop may leave the cursor alone. The construct that it belongs to advances
all the same, as the name of the tag is behind it.
-/

namespace SourceMarkup

open Text Scan

namespace Xml

variable {s : Scan} {c : Char}

/-! ### Rounds and constructs -/

/-- A stray `<` is left to the next construct. -/
theorem forward_tagRound : Forward id (fun c => c == '<') tagRound := by
  intro s h
  unfold tagRound
  split
  · next hpeek => exact ahead_of_peek_none hpeek
  · next c hpeek =>
      split
      · exact .inl ((advances_bump hpeek Nat.one_pos).emit _ _)
      split
      · exact .inl ((advances_bump hpeek Nat.two_pos).emit _ _)
      split
      · have hquote := advances_bump hpeek Nat.one_pos
        have hvalue := hquote.trans (hquote.inBounds.eatWhile (· != c))
        exact (hvalue.trans (hvalue.inBounds.bump 1)).emit _ _
      split
      · next hc => exact ahead_of_stop hpeek (beq_iff_eq.2 hc)
      split
      · next hstart => exact (advances_eatWhile hpeek (isNamePart_of_isNameStart hstart)).emit _ _
      · exact advances_bump hpeek Nat.one_pos

theorem reaches_scanTag (h : s.InBounds) : Reaches s (scanTag s) :=
  forward_tagRound.reaches_loop left h

theorem advances_scanDelimited (kind : TokenKind) (opening terminator : Text)
    (hpeek : s.peek = some c) (hopening : 0 < opening.length) :
    Advances s (scanDelimited kind opening terminator s) := by
  have hopened := advances_bump hpeek hopening
  exact (hopened.trans (hopened.inBounds.eatThrough terminator)).emit _ _

theorem advances_scanTagFromName (hpeek : s.peek = some c) :
    Advances s (scanTagFromName s) := by
  unfold scanTagFromName
  have hnameAt : 0 < if s.peekAt 1 == some '/' then 2 else 1 := by split <;> decide
  generalize (if s.peekAt 1 == some '/' then 2 else 1) = nameAt at hnameAt
  dsimp only
  split
  · have hname := advances_bump hpeek hnameAt
    have htag := (hname.trans (hname.inBounds.eatWhile isNamePart)).emit .xmlTag s.pos
    exact htag.trans (reaches_scanTag htag.inBounds)
  · exact advances_bump hpeek Nat.one_pos

theorem advances_scanMarkup (hpeek : s.peek = some c) : Advances s (scanMarkup s) := by
  unfold scanMarkup
  split
  · exact advances_scanDelimited _ _ _ hpeek (by decide)
  split
  · exact advances_scanDelimited _ _ _ hpeek (by decide)
  split
  · exact advances_scanDelimited _ _ _ hpeek (by decide)
  split
  · exact advances_scanDelimited _ _ _ hpeek (by decide)
  · exact advances_scanTagFromName hpeek

theorem advances_scanEntity (hpeek : s.peek = some c) : Advances s (scanEntity s) := by
  have hampersand := advances_bump hpeek Nat.one_pos
  have hbody := hampersand.trans (hampersand.inBounds.eatWhile isEntityPart)
  unfold scanEntity
  dsimp only
  split
  · exact (hbody.trans (hbody.inBounds.bump 1)).emit _ _
  · exact hbody

/-- A construct is not empty, also if a stray `<` ends it. -/
theorem advances_scanConstruct (hpeek : s.peek = some c) : Advances s (scanConstruct c s) := by
  unfold scanConstruct
  split
  · exact advances_scanMarkup hpeek
  split
  · exact advances_scanEntity hpeek
  · exact advances_bump hpeek Nat.one_pos

theorem forward_constructRound : Forward id (fun _ => false) constructRound := by
  intro s h
  unfold constructRound
  split
  · next hpeek => exact ahead_of_peek_none hpeek
  · next c hpeek => exact advances_scanConstruct hpeek

/-! ### The checked scan -/

namespace Checked

def tagRound (s : Scan) : Checked (Round Scan) := do
  match s.peek with
  | none => return .done s
  | some c =>
      if c = '>' then return .done ((s.bump 1).emit .xmlTag s.pos)
      else if c = '/' && s.peekAt 1 == some '>' then
        return .done ((s.bump 2).emit .xmlTag s.pos)
      else if c = '"' || c = '\'' then
        let value ← Checked.eatUntil c (s.bump 1)
        return .again ((value.bump 1).emit .xmlAttributeValue s.pos)
      else if c = '<' then return .done s
      else if isNameStart c then
        return .again ((← Checked.eatWhile isNamePart s).emit .xmlAttribute s.pos)
      else return .again (s.bump 1)

def scanTag (s : Scan) : Checked Scan :=
  Checked.loop id tagRound s

def scanDelimited (kind : TokenKind) (opening terminator : Text) (s : Scan) :
    Checked Scan := do
  return (← Checked.eatThrough terminator (s.bump opening.length)).emit kind s.pos

def scanTagFromName (s : Scan) : Checked Scan := do
  let nameAt := if s.peekAt 1 == some '/' then 2 else 1
  if (s.peekAt nameAt).any isNameStart then
    let name ← Checked.eatWhile isNamePart (s.bump nameAt)
    scanTag (name.emit .xmlTag s.pos)
  else return s.bump 1

def scanMarkup (s : Scan) : Checked Scan := do
  if ← Checked.startsWith "<!--".toList s then
    scanDelimited .xmlComment "<!--".toList "-->".toList s
  else if ← Checked.startsWith "<![CDATA[".toList s then
    scanDelimited .xmlCdata "<![CDATA[".toList "]]>".toList s
  else if ← Checked.startsWith "<?".toList s then
    scanDelimited .xmlProlog "<?".toList "?>".toList s
  else if ← Checked.startsWith "<!".toList s then
    scanDelimited .xmlProlog "<!".toList ">".toList s
  else scanTagFromName s

def scanEntity (s : Scan) : Checked Scan := do
  let body ← Checked.eatWhile isEntityPart (s.bump 1)
  if body.peek == some ';' && s.pos + 1 < body.pos then
    return (body.bump 1).emit .xmlEntity s.pos
  else return body

def scanConstruct (c : Char) (s : Scan) : Checked Scan :=
  if c = '<' then scanMarkup s
  else if c = '&' then scanEntity s
  else pure (s.bump 1)

def constructRound (s : Scan) : Checked (Round Scan) := do
  match s.peek with
  | none => return .done s
  | some c => return .again (← scanConstruct c s)

def tokens (source : Text) : Checked (List Token) := do
  return (← Checked.loop id constructRound (start source)).tokens.toList

theorem tagRound_eq (s : Scan) (h : s.InBounds) : tagRound s = pure (Xml.tagRound s) := by
  unfold tagRound Xml.tagRound
  cases s.peek with
  | none => rfl
  | some c =>
      simp only [Checked.eatUntil_eq (h.bump 1).inBounds, Checked.eatWhile_eq h, pure_bind,
        apply_ite (pure : Round Scan → Checked (Round Scan))]

theorem scanTag_eq (h : s.InBounds) : scanTag s = pure (Xml.scanTag s) :=
  Checked.loop_eq forward_tagRound tagRound_eq h

theorem scanDelimited_eq (h : s.InBounds) (kind : TokenKind) (opening terminator : Text) :
    scanDelimited kind opening terminator s =
      pure (Xml.scanDelimited kind opening terminator s) := by
  rw [scanDelimited, Checked.eatThrough_eq (h.bump _).inBounds, pure_bind, Xml.scanDelimited]

theorem scanTagFromName_eq (h : s.InBounds) :
    scanTagFromName s = pure (Xml.scanTagFromName s) := by
  unfold scanTagFromName Xml.scanTagFromName
  generalize (if s.peekAt 1 == some '/' then 2 else 1) = nameAt
  have hname := (h.bump nameAt).inBounds
  have htag := ((hname.eatWhile isNamePart).emit .xmlTag s.pos).inBounds
  dsimp only
  split
  · rw [Checked.eatWhile_eq hname, pure_bind, scanTag_eq htag]
  · rfl

theorem scanMarkup_eq (h : s.InBounds) : scanMarkup s = pure (Xml.scanMarkup s) := by
  unfold scanMarkup Xml.scanMarkup
  simp only [Checked.startsWith_eq h, scanDelimited_eq h, scanTagFromName_eq h, pure_bind,
    apply_ite (pure : Scan → Checked Scan)]

theorem scanEntity_eq (h : s.InBounds) : scanEntity s = pure (Xml.scanEntity s) := by
  unfold scanEntity Xml.scanEntity
  rw [Checked.eatWhile_eq (h.bump 1).inBounds, pure_bind]
  dsimp only
  split <;> rfl

/-- A construct is scanned without a fault. -/
theorem scanConstruct_eq (h : s.InBounds) (c : Char) :
    scanConstruct c s = pure (Xml.scanConstruct c s) := by
  unfold scanConstruct Xml.scanConstruct
  simp only [scanMarkup_eq h, scanEntity_eq h, apply_ite (pure : Scan → Checked Scan)]

theorem constructRound_eq (s : Scan) (h : s.InBounds) :
    constructRound s = pure (Xml.constructRound s) := by
  unfold constructRound Xml.constructRound
  cases s.peek with
  | none => rfl
  | some c =>
      dsimp only
      rw [scanConstruct_eq h, pure_bind]

theorem tokens_eq_pure (source : Text) : tokens source = pure (Xml.tokens source) := by
  unfold tokens
  rw [Checked.loop_eq forward_constructRound constructRound_eq (Nat.zero_le _)]
  rfl

end Checked

end Xml

end SourceMarkup
