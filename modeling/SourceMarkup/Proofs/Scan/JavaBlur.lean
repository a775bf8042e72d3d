import SourceMarkup.Proofs.Scan.Blur
import SourceMarkup.Proofs.Scan.JavaTokens

/-!
# Scans of Java tell no bytes beyond ASCII apart

Each round of a scan of Java commutes with blurring, and so does each construct.
-/

namespace SourceMarkup

open Text Scan

namespace Java

variable {s : Scan}

theorem quotedRound_blur {quote : Char} (hquote : isBeyondAscii quote = false) (s : Scan) :
    quotedRound quote s.blur = (quotedRound quote s).map blur := by
  unfold quotedRound
  rw [peek_blur]
  cases s.peek with
  | none => rfl
  | some c =>
      have hslash := blurChar_eq_iff (c := c) (d := '\\') (by decide)
      have hline := blurChar_eq_iff (c := c) (d := '\n') (by decide)
      simp only [Option.map_some, hslash, hline, blurChar_eq_iff hquote, bump_blur,
        apply_ite (Round.map blur), Round.map_again, Round.map_done]

theorem scanQuoted_blur (quote : Char) (hquote : isBeyondAscii quote = false) (s : Scan) :
    scanQuoted quote s.blur = (scanQuoted quote s).blur := by
  rw [scanQuoted, bump_blur]
  exact Round.loop_map blur blur_left (quotedRound_blur hquote) (s.bump 1)

theorem textBlockRound_blur (s : Scan) :
    textBlockRound s.blur = (textBlockRound s).map blur := by
  unfold textBlockRound
  rw [peek_blur]
  cases s.peek with
  | none => rfl
  | some c =>
      have hslash := blurChar_eq_iff (c := c) (d := '\\') (by decide)
      have hquotes := s.startsWith_blur (t := blockQuotes) (by decide)
      simp only [Option.map_some, hslash, hquotes, bump_blur, apply_ite (Round.map blur),
        Round.map_again, Round.map_done]

theorem scanTextBlock_blur (s : Scan) : scanTextBlock s.blur = (scanTextBlock s).blur := by
  rw [scanTextBlock, bump_blur]
  exact Round.loop_map blur blur_left textBlockRound_blur (s.bump 3)

theorem numberRound_blur {isExponent : Char → Bool} (hexponent : TellsAsciiOnly isExponent)
    (s : Scan) : numberRound isExponent s.blur = (numberRound isExponent s).map blur := by
  unfold numberRound
  rw [peek_blur]
  cases s.peek with
  | none => rfl
  | some c =>
      have hpart : TellsAsciiOnly isNumberPart := tells_of_false fun _ => isNumberPart_of_beyond
      simp only [Option.map_some, hexponent.apply_blurChar, hpart.apply_blurChar, peekAt_blur,
        tells_isSign.any_map_blurChar, bump_blur, apply_ite (Round.map blur), Round.map_again,
        Round.map_done]

theorem scanNumber_blur (s : Scan) : scanNumber s.blur = (scanNumber s).blur := by
  unfold scanNumber
  rw [s.startsWith_blur (by decide), s.startsWith_blur (by decide), bump_blur]
  split
  · exact Round.loop_map blur blur_left
      (numberRound_blur (tells_of_false isHexExponent_of_beyond)) (s.bump 2)
  · exact Round.loop_map blur blur_left
      (numberRound_blur (tells_of_false isDecimalExponent_of_beyond)) s

theorem atTagPosition_blur (s : Scan) : atTagPosition s.blur = atTagPosition s := by
  have htells : TellsAsciiOnly admitsTag := tells_of_false fun _ => admitsTag_of_beyond
  have hadmits : admitsTag ∘ blurChar = admitsTag := funext htells.apply_blurChar
  rw [atTagPosition, blur_pos, slice_blur, List.any_map, hadmits, atTagPosition]

def blurPart (state : Scan × Nat) : Scan × Nat :=
  (state.1.blur, state.2)

theorem javadocRound_blur (state : Scan × Nat) :
    javadocRound (blurPart state) = (javadocRound state).map blurPart := by
  obtain ⟨s, part⟩ := state
  unfold javadocRound blurPart
  dsimp only
  rw [peek_blur]
  cases s.peek with
  | none => rfl
  | some c =>
      have hat := blurChar_eq_iff (c := c) (d := '@') (by decide)
      have hend := s.startsWith_blur (t := "*/".toList) (by decide)
      simp only [Option.map_some, hat, hend, atTagPosition_blur, peekAt_blur,
        tells_isAsciiLetter.any_map_blurChar, bump_blur, emitRange_blur, emit_blur, blur_pos,
        eatWhile_blur tells_isAsciiAlnum, apply_ite (Round.map _), Round.map_again,
        Round.map_done]

theorem scanJavadoc_blur (s : Scan) : scanJavadoc s.blur = (scanJavadoc s).blur := by
  unfold scanJavadoc
  rw [bump_blur, blur_pos]
  have hloop : Round.loop (fun state => state.1.left) javadocRound (blurPart (s.bump 3, s.pos)) =
      blurPart (Round.loop (fun state => state.1.left) javadocRound (s.bump 3, s.pos)) :=
    Round.loop_map blurPart (fun state => blur_left state.1) javadocRound_blur _
  rw [blurPart] at hloop
  rw [hloop]
  exact emit_blur _ _ _

theorem scanAnnotation_blur (s : Scan) : scanAnnotation s.blur = ( scanAnnotation s).blur := by
  have hinterface : ∀ t : Text, t.map blurChar = "@interface".toList ↔ t = "@interface".toList :=
    fun t => map_blurChar_eq_iff (by decide)
  unfold scanAnnotation
  simp only [bump_blur, eatWhile_blur tells_isIdentifierPart, slice_blur, blur_pos, hinterface,
    emit_blur]

theorem scanWord_blur (s : Scan) : scanWord s.blur = (scanWord s).blur := by
  have hkeywords : ∀ t : Text, keywords.contains (t.map blurChar) = keywords.contains t :=
    fun t => contains_keywords_eq fun _ hp => map_blurChar_eq_iff hp
  unfold scanWord
  simp only [eatWhile_blur tells_isIdentifierPart, slice_blur, blur_pos,
    hkeywords, emit_blur, apply_ite blur]

theorem scanConstruct_blur (c : Char) (s : Scan) :
    scanConstruct (blurChar c) s.blur = (scanConstruct c s).blur := by
  have hslash := blurChar_eq_iff (c := c) (d := '/') (by decide)
  have hquote := blurChar_eq_iff (c := c) (d := '"') (by decide)
  have hapostrophe := blurChar_eq_iff (c := c) (d := '\'') (by decide)
  have hdot := blurChar_eq_iff (c := c) (d := '.') (by decide)
  have hat := blurChar_eq_iff (c := c) (d := '@') (by decide)
  unfold scanConstruct
  simp only [hslash, hquote, hapostrophe, hdot, hat,
    s.startsWith_blur (t := "//".toList) (by decide),
    s.startsWith_blur (t := "/**".toList) (by decide),
    s.startsWith_blur (t := "/**/".toList) (by decide),
    s.startsWith_blur (t := "/*".toList) (by decide),
    s.startsWith_blur (t := blockQuotes) (by decide),
    tells_isAsciiDigit.apply_blurChar, tells_isIdentifierStart.apply_blurChar, peekAt_blur,
    tells_isAsciiDigit.any_map_blurChar, tells_isIdentifierStart.any_map_blurChar,
    eatUntil_blur (c := '\n') (by decide), eatThrough_blur (t := "*/".toList) (by decide),
    scanJavadoc_blur, scanTextBlock_blur, scanQuoted_blur '"' (by decide),
    scanQuoted_blur '\'' (by decide), scanNumber_blur, scanAnnotation_blur,
    scanWord_blur, bump_blur, emit_blur, blur_pos, apply_ite blur]

theorem constructRound_blur (s : Scan) :
    constructRound s.blur = (constructRound s).map blur := by
  unfold constructRound
  rw [peek_blur]
  cases s.peek with
  | none => rfl
  | some c =>
      rw [Option.map_some]
      exact congrArg Round.again (scanConstruct_blur c s)

theorem tokens_eq_of_blur {source other : Text} (h : (start source).blur = (start other).blur) :
    tokens source = tokens other := by
  have hloop := Round.loop_map blur blur_left constructRound_blur
  rw [tokens, ← blur_tokens, ← hloop, h, hloop, blur_tokens, tokens]

end Java

end SourceMarkup
