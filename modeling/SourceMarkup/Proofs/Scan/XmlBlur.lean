import SourceMarkup.Proofs.Scan.Blur
import SourceMarkup.Proofs.Scan.Xml

/-!
# Scans of XML tell no bytes beyond ASCII apart

Each round of a scan of XML commutes with blurring, between tags and inside them. The quote
that ends a value is the one that began it, which is ASCII.
-/

namespace SourceMarkup

open Text Scan

namespace Xml

theorem tagRound_of_beyond {s : Scan} {c : Char} (hpeek : s.peek = some c)
    (hc : isBeyondAscii c) :
    tagRound s = .again ((s.eatWhile isNamePart).emit .xmlAttribute s.pos) := by
  have hne : ∀ d, isBeyondAscii d = false → c ≠ d := fun d hd => ne_of_beyond hc hd
  have hname : isNameStart c = true := by simp [isNameStart, hc]
  simp [tagRound, hpeek, hne '>' (by decide), hne '/' (by decide), hne '"' (by decide),
    hne '\'' (by decide), hne '<' (by decide), hname]

theorem tagRound_blur (s : Scan) : tagRound s.blur = (tagRound s).map blur := by
  cases hpeek : s.peek with
  | none => simp [tagRound, hpeek]
  | some c =>
      cases hc : isBeyondAscii c with
      | true =>
          have hblur : s.blur.peek = some (blurChar c) := by rw [peek_blur, hpeek]; rfl
          rw [tagRound_of_beyond hpeek hc, tagRound_of_beyond hblur (isBeyondAscii_blurChar hc),
            eatWhile_blur tells_isNamePart, emit_blur, Round.map_again, blur_pos]
      | false =>
          have hblur : s.blur.peek = some c := by
            rw [peek_blur, hpeek, Option.map_some, blurChar_of_ascii hc]
          simp only [tagRound, hpeek, hblur, peekAt_blur, map_blurChar_beq (d := '>') (by decide),
            bump_blur, eatUntil_blur hc, eatWhile_blur tells_isNamePart, emit_blur, blur_pos,
            apply_ite (Round.map blur), Round.map_again, Round.map_done]

theorem scanTag_blur (s : Scan) : scanTag s.blur = (scanTag s).blur :=
  Round.loop_map blur blur_left tagRound_blur s

theorem scanDelimited_blur {kind : TokenKind} {opening : Text} (terminator : Text)
    (hterminator : terminator.isAscii) (s : Scan) :
    scanDelimited kind opening terminator s.blur =
      (scanDelimited kind opening terminator s).blur := by
  unfold scanDelimited
  rw [bump_blur, eatThrough_blur hterminator, blur_pos, emit_blur]

theorem scanTagFromName_blur (s : Scan) : scanTagFromName s.blur = (scanTagFromName s).blur := by
  unfold scanTagFromName
  simp only [peekAt_blur, map_blurChar_beq (d := '/') (by decide),
    tells_isNameStart.any_map_blurChar, bump_blur, eatWhile_blur tells_isNamePart, blur_pos,
    emit_blur, scanTag_blur, apply_ite blur]

theorem scanMarkup_blur (s : Scan) : scanMarkup s.blur = (scanMarkup s).blur := by
  unfold scanMarkup
  simp only [s.startsWith_blur (t := "<!--".toList) (by decide),
    s.startsWith_blur (t := "<![CDATA[".toList) (by decide),
    s.startsWith_blur (t := "<?".toList) (by decide),
    s.startsWith_blur (t := "<!".toList) (by decide),
    scanDelimited_blur "-->".toList (by decide),
    scanDelimited_blur "]]>".toList (by decide),
    scanDelimited_blur "?>".toList (by decide),
    scanDelimited_blur ">".toList (by decide),
    scanTagFromName_blur, apply_ite blur]

theorem scanEntity_blur (s : Scan) : scanEntity s.blur = (scanEntity s).blur := by
  unfold scanEntity
  simp only [bump_blur, eatWhile_blur tells_isEntityPart, peek_blur,
    map_blurChar_beq (d := ';') (by decide), blur_pos, emit_blur, apply_ite blur]

theorem scanConstruct_blur (c : Char) (s : Scan) :
    scanConstruct (blurChar c) s.blur = (scanConstruct c s).blur := by
  have hopen := blurChar_eq_iff (c := c) (d := '<') (by decide)
  have hampersand := blurChar_eq_iff (c := c) (d := '&') (by decide)
  simp only [scanConstruct, hopen, hampersand, scanMarkup_blur, scanEntity_blur, bump_blur,
    apply_ite blur]

theorem constructRound_blur (s : Scan) :
    constructRound s.blur = (constructRound s).map blur := by
  unfold constructRound
  rw [peek_blur]
  cases s.peek with
  | none => rfl
  | some c =>
      rw [Option.map_some]
      exact congrArg Round.again (scanConstruct_blur c s)

theorem tokens_eq_of_blur {source other : Text} (h : (start source).blur = (start other).blur) :
    tokens source = tokens other := by
  have hloop := Round.loop_map blur blur_left constructRound_blur
  rw [tokens, ← blur_tokens, ← hloop, h, hloop, blur_tokens, tokens]

end Xml

end SourceMarkup
