import SourceMarkup.Proofs.Lexeme.Java
import SourceMarkup.Proofs.Scan.Read
import SourceMarkup.Scan.Java

/-!
# What a scan of Java reads
-/

namespace SourceMarkup

open Text Lexeme Scan

namespace Java

variable {s : Scan} {before after : Text}

/-! ### Literals -/

theorem quotedLoop_eq {quote : Char} (hquote : isBeyondAscii quote = false)
    (h : Stands s before after) :
    Round.loop left (quotedRound quote) s =
      s.skip (after.take (quotedLength quote after)) := by
  have hpass : ∀ s d, s.peek = some d → isBeyondAscii d →
      quotedRound quote s = .again (s.bump 1) := by
    intro s d hpeek hd
    simp [quotedRound, hpeek, ne_of_beyond hd hquote,
      ne_of_beyond (d := '\\') hd (by decide), ne_of_beyond (d := '\n') hd (by decide)]
  fun_induction quotedLength quote after generalizing s before with
  | case1 =>
      have hround : quotedRound quote s = .done s := by simp [quotedRound, h.peek_nil]
      exact Round.loop_done hround
  | case2 =>
      have hround : quotedRound quote s = .again (s.bump 2) := by
        simp [quotedRound, h.peek_ascii (by decide)]
      have hend : quotedRound quote (s.skip ['\\']) = .done (s.skip ['\\']) := by
        simp [quotedRound, h.skip_cons.peek_nil]
      have hloop := loop_skip_escape id (fun _ => rfl) hpass h (by decide) hround
      exact hloop.trans (Round.loop_done hend)
  | case3 d ds ih =>
      have hround : quotedRound quote s = .again (s.bump 2) := by
        simp [quotedRound, h.peek_ascii (by decide)]
      have hloop : Round.loop left (quotedRound quote) s =
          Round.loop left (quotedRound quote) (s.skip ['\\', d]) :=
        loop_skip_escape id (fun _ => rfl) hpass h (by decide) hround
      rw [hloop, ih (h.skip (t := ['\\', d])), skip_skip]
      rfl
  | case4 cs =>
      have hround : quotedRound quote s = .done s := by
        simp [quotedRound, h.peek_ascii (by decide)]
      exact Round.loop_done hround
  | case5 cs hslash hline =>
      have hround : quotedRound quote s = .done (s.bump 1) := by
        simp [quotedRound, h.peek_ascii hquote, hslash, hline]
      have hbump : s.bump 1 = s.skip [quote] :=
        h.bump_eq (t := [quote]) (by simp [utf8Size_of_ascii hquote])
      rw [Round.loop_done hround, hbump]
      rfl
  | case6 c cs hslash hline hquote ih =>
      have hloop : Round.loop left (quotedRound quote) s =
          Round.loop left (quotedRound quote) (s.skip [c]) := by
        refine loop_skip id (fun _ => rfl) h (fun _ => hpass) fun hc => ?_
        simp [quotedRound, h.peek_ascii hc, hslash, hline, hquote]
      rw [hloop, ih h.skip_cons, skip_skip]
      rfl

theorem textBlockLoop_eq (h : Stands s before after) :
    Round.loop left textBlockRound s =
      s.skip (after.take (textBlockLength after)) := by
  have hpass : ∀ s d, s.peek = some d → isBeyondAscii d →
      textBlockRound s = .again (s.bump 1) := by
    intro s d hpeek hd
    have hstarts : s.startsWith blockQuotes = false :=
      Stands.startsWith_eq_false hpeek hd (by decide)
    simp [textBlockRound, hpeek, hstarts, ne_of_beyond (d := '\\') hd (by decide)]
  fun_induction textBlockLength after generalizing s before with
  | case1 =>
      have hround : textBlockRound s = .done s := by simp [textBlockRound, h.peek_nil]
      exact Round.loop_done hround
  | case2 =>
      have hround : textBlockRound s = .again (s.bump 2) := by
        simp [textBlockRound, h.peek_ascii (by decide)]
      have hend : textBlockRound (s.skip ['\\']) = .done (s.skip ['\\']) := by
        simp [textBlockRound, h.skip_cons.peek_nil]
      have hloop := loop_skip_escape id (fun _ => rfl) hpass h (by decide) hround
      exact hloop.trans (Round.loop_done hend)
  | case3 d ds ih =>
      have hround : textBlockRound s = .again (s.bump 2) := by
        simp [textBlockRound, h.peek_ascii (by decide)]
      have hloop : Round.loop left textBlockRound s =
          Round.loop left textBlockRound (s.skip ['\\', d]) :=
        loop_skip_escape id (fun _ => rfl) hpass h (by decide) hround
      rw [hloop, ih (h.skip (t := ['\\', d])), skip_skip]
      rfl
  | case4 c cs hslash hquotes =>
      obtain ⟨rest, hrest⟩ := List.isPrefixOf_iff_prefix.1 hquotes
      have hstands : Stands s before (blockQuotes ++ rest) := hrest ▸ h
      have hc : c = '"' := (List.cons.inj hrest).1.symm
      have hround : textBlockRound s = .done (s.bump 3) := by
        simp [textBlockRound, h.peek_ascii (hc ▸ by decide), hslash,
          h.startsWith_eq (p := blockQuotes) (by decide), hquotes]
      rw [Round.loop_done hround, hstands.bump_eq (t := blockQuotes) (by decide),
        ← hrest, List.take_left]
  | case5 c cs hslash hquotes ih =>
      have hstarts := h.startsWith_eq (p := blockQuotes) (by decide)
      have hloop : Round.loop left textBlockRound s =
          Round.loop left textBlockRound (s.skip [c]) := by
        refine loop_skip id (fun _ => rfl) h (fun _ => hpass) fun hc => ?_
        simp [textBlockRound, h.peek_ascii hc, hslash, hstarts, hquotes]
      rw [hloop, ih h.skip_cons, skip_skip]
      rfl

theorem startsWithSign_eq (t : Text) : startsWithSign t = t.head?.any isSign := by
  cases t with
  | nil => rfl
  | cons c cs => exact startsWithSign_cons c cs

theorem tells_isSign : TellsAsciiOnly isSign := by
  refine tells_of_false fun c hc => ?_
  simp [isSign, ne_of_beyond (d := '+') hc (by decide),
    ne_of_beyond (d := '-') hc (by decide)]

theorem isNumberPart_of_beyond {c : Char} (h : isBeyondAscii c) :
    isNumberPart c = false := by
  simp [isNumberPart, isAsciiAlnum_of_beyond h, ne_of_beyond (d := '_') h (by decide),
    ne_of_beyond (d := '.') h (by decide)]

theorem numberLoop_eq {isExponent : Char → Bool}
    (hexponent : ∀ c, isBeyondAscii c → isExponent c = false)
    (h : Stands s before after) :
    Round.loop left (numberRound isExponent) s =
      s.skip (after.take (numberLength isExponent after)) := by
  have hascii : ∀ c, isExponent c = true → isBeyondAscii c = false := by
    intro c hc
    cases hbeyond : isBeyondAscii c with
    | false => rfl
    | true => rw [hexponent c hbeyond] at hc; contradiction
  fun_induction numberLength isExponent after generalizing s before with
  | case1 =>
      have hround : numberRound isExponent s = .done s := by
        simp [numberRound, h.peek_nil]
      exact Round.loop_done hround
  | case2 c hsign => simp [startsWithSign] at hsign
  | case3 c d ds hsign ih =>
      obtain ⟨hc, hd⟩ := Bool.and_eq_true_iff.1 hsign
      have hdsign : isSign d = true := by simpa [startsWithSign_eq] using hd
      have hdascii : isBeyondAscii d = false := by
        rcases (by simpa [isSign] using hdsign : d = '+' ∨ d = '-') with rfl | rfl <;>
          decide
      have hround : numberRound isExponent s = .again (s.bump 2) := by
        have hpeek := h.peekAt_one_any tells_isSign (hascii c hc)
        simp [numberRound, h.peek_ascii (hascii c hc), hc, hpeek, hdsign]
      have hstands : Stands s before ([c, d] ++ ds) := h
      have hbump : s.bump 2 = s.skip [c, d] := by
        refine hstands.bump_eq ?_
        simp [utf8Size_of_ascii (hascii c hc), utf8Size_of_ascii hdascii]
      refine (loop_skip_of_bump id (fun _ => rfl) (List.cons_ne_nil _ _) hstands hbump
        hround).trans ?_
      rw [id, ih hstands.skip, skip_skip]
      rfl
  | case4 c cs hsign hpart ih =>
      have hcascii : isBeyondAscii c = false := by
        cases hc : isBeyondAscii c with
        | false => rfl
        | true => rw [isNumberPart_of_beyond hc] at hpart; contradiction
      have hround : numberRound isExponent s = .again (s.bump 1) := by
        have hpeek := h.peekAt_one_any tells_isSign hcascii
        rw [startsWithSign_eq, ← hpeek] at hsign
        simp [numberRound, h.peek_ascii hcascii, hsign, hpart]
      have hloop : Round.loop left (numberRound isExponent) s =
          Round.loop left (numberRound isExponent) (s.skip [c]) :=
        loop_skip id (fun _ => rfl) h (by simp [hcascii]) fun _ => hround
      rw [hloop, ih h.skip_cons, skip_skip]
      rfl
  | case5 c cs hsign hpart =>
      have hround : numberRound isExponent s = .done s := by
        cases hc : isBeyondAscii c with
        | true =>
            obtain ⟨d, hpeek, hd⟩ := h.peek_beyond hc
            simp [numberRound, hpeek, hexponent d hd, isNumberPart_of_beyond hd]
        | false =>
            have hpeek := h.peekAt_one_any tells_isSign hc
            rw [startsWithSign_eq, ← hpeek] at hsign
            simp [numberRound, h.peek_ascii hc, hsign, hpart]
      exact Round.loop_done hround

end Java

end SourceMarkup
