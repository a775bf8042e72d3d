import SourceMarkup.Proofs.Lexeme.Basic
import SourceMarkup.Proofs.Scan.Basic

/-!
# Runs of characters and terminators

The loops that both languages share: over the characters that satisfy a condition,
and through the next terminator. How far they go is told by the bytes ahead, and from
a place between two characters each moves the cursor over as many characters as the
lexemes count.
-/

namespace SourceMarkup

open Text Lexeme

namespace Text

theorem TellsAsciiOnly.takeWhile_byteChars {p : Char → Bool} (hp : TellsAsciiOnly p)
    (t : Text) : (byteChars t).takeWhile p = byteChars (t.takeWhile p) := by
  induction t with
  | nil => rfl
  | cons c cs ih =>
      cases hc : p c with
      | true =>
          have hbytes : ∀ d ∈ charBytes c, p d = true :=
            fun d hd => (hp.apply_of_mem hd).trans hc
          rw [byteChars_cons, List.takeWhile_append_of_pos hbytes, ih,
            List.takeWhile_cons_of_pos hc, byteChars_cons]
      | false =>
          obtain ⟨d, ds, hds⟩ := charBytes_eq_cons c
          have hd : p d = false := (hp.apply_of_mem (hds ▸ List.mem_cons_self)).trans hc
          rw [byteChars_cons, hds, List.cons_append, List.takeWhile_cons_of_neg (by simp [hd]),
            List.takeWhile_cons_of_neg (by simp [hc]), byteChars_nil]

theorem throughLength_byteChars {c : Char} {cs : Text} (hascii : isAscii (c :: cs))
    (t : Text) :
    throughLength (c :: cs) (byteChars t) =
      byteLength (t.take (throughLength (c :: cs) t)) := by
  induction t with
  | nil => rfl
  | cons d ds ih =>
      have hbytes := isPrefixOf_byteChars hascii (d :: ds)
      cases hfound : (c :: cs).isPrefixOf (d :: ds) with
      | true =>
          obtain ⟨rest, hrest⟩ := List.isPrefixOf_iff_prefix.1 hfound
          obtain ⟨e, es, hes⟩ := charBytes_eq_cons d
          rw [hfound, byteChars_cons, hes, List.cons_append] at hbytes
          rw [byteChars_cons, hes, List.cons_append, throughLength, if_pos hbytes, throughLength,
            if_pos hfound, ← hrest, List.take_left, byteLength_of_ascii hascii]
      | false =>
          rw [throughLength, hfound, if_neg Bool.false_ne_true, List.take_succ_cons,
            byteLength_cons, ← ih]
          cases hd : isBeyondAscii d with
          | false =>
              rw [byteChars_cons_of_ascii hd, hfound] at hbytes
              rw [byteChars_cons_of_ascii hd, throughLength, hbytes, if_neg Bool.false_ne_true,
                utf8Size_of_ascii hd, Nat.add_comm]
          | true =>
              have hc : c ∉ charBytes d := fun hmem =>
                ne_of_beyond (isBeyondAscii_of_mem_charBytes hd hmem)
                  (isAscii_cons_iff.1 hascii).1 rfl
              rw [byteChars_cons, throughLength_append hc, length_charBytes]

end Text

namespace Scan

/-! ### Bytes -/

section Ahead

variable {s : Scan} {c : Char} {cs : Text}

theorem peek_of_ahead (h : s.ahead = c :: cs) : s.peek = some c := by
  rw [peek_eq_head?, h]
  rfl

theorem peek_of_ahead_nil (h : s.ahead = []) : s.peek = none := by
  rw [peek_eq_head?, h]
  rfl

theorem ahead_bump_one (h : s.ahead = c :: cs) : (s.bump 1).ahead = cs := by
  have htail : s.ahead.tail = cs := by rw [h, List.tail_cons]
  rw [bump_one_of_peek (peek_of_ahead h), ← htail, ahead, ahead, ← List.map_tail,
    List.tail_drop]

theorem left_bump_one (h : s.ahead = c :: cs) : (s.bump 1).left < s.left := by
  rw [← length_ahead, ← length_ahead, ahead_bump_one h, h]
  exact Nat.lt_succ_self _

/-- How far a run of bytes goes. -/
theorem eatWhile_eq_takeWhile (p : Char → Bool) (s : Scan) :
    s.eatWhile p = { s with pos := s.pos + (s.ahead.takeWhile p).length } := by
  induction hahead : s.ahead generalizing s with
  | nil =>
      have hround : whileRound p s = .done s := by rw [whileRound, peek_of_ahead_nil hahead]
      exact Round.loop_done hround
  | cons c cs ih =>
      have hpeek := peek_of_ahead hahead
      have hround : whileRound p s = if p c then .again (s.bump 1) else .done s := by
        rw [whileRound, hpeek]
      cases hc : p c with
      | false =>
          rw [hc] at hround
          rw [List.takeWhile_cons_of_neg (by simp [hc])]
          exact Round.loop_done hround
      | true =>
          rw [hc] at hround
          rw [List.takeWhile_cons_of_pos hc, eatWhile,
            Round.loop_again hround (left_bump_one hahead)]
          refine (ih (s.bump 1) (ahead_bump_one hahead)).trans ?_
          rw [bump_one_of_peek hpeek, List.length_cons, Nat.add_assoc, Nat.add_comm 1]

/-- How far the end of a terminator is. -/
theorem eatThrough_eq_throughLength (terminator : Text) (s : Scan) :
    s.eatThrough terminator =
      { s with pos := s.pos + throughLength terminator s.ahead } := by
  induction hahead : s.ahead generalizing s with
  | nil =>
      have hround : throughRound terminator s = .done s := by
        rw [throughRound, peek_of_ahead_nil hahead]
      exact Round.loop_done hround
  | cons c cs ih =>
      have hpeek := peek_of_ahead hahead
      have hstarts := s.startsWith_eq_isPrefixOf terminator
      rw [hahead] at hstarts
      cases hfound : terminator.isPrefixOf (c :: cs) with
      | true =>
          have hround : throughRound terminator s = .done (s.bump terminator.length) := by
            rw [throughRound, hpeek]
            exact if_pos (hstarts.trans hfound)
          have hle : terminator.length ≤ s.left := by
            rw [← length_ahead, hahead]
            exact (List.isPrefixOf_iff_prefix.1 hfound).length_le
          have hlt := pos_lt_of_peek hpeek
          have hbump : s.pos + terminator.length ≤ s.bytes.size := by
            rw [left] at hle
            omega
          rw [eatThrough, Round.loop_done hround, throughLength, if_pos hfound, bump,
            Nat.min_eq_left hbump]
      | false =>
          have hround : throughRound terminator s = .again (s.bump 1) := by
            rw [throughRound, hpeek]
            exact if_neg (by rw [hstarts, hfound]; exact Bool.false_ne_true)
          rw [eatThrough, Round.loop_again hround (left_bump_one hahead), throughLength,
            if_neg (by rw [hfound]; exact Bool.false_ne_true)]
          refine (ih (s.bump 1) (ahead_bump_one hahead)).trans ?_
          rw [bump_one_of_peek hpeek, Nat.add_assoc, Nat.add_comm 1]

end Ahead

/-! ### Characters -/

namespace Stands

variable {s : Scan} {before after : Text}

theorem peek_tells {p : Char → Bool} (hp : TellsAsciiOnly p) {c : Char}
    (h : Stands s before (c :: after)) : ∃ d, s.peek = some d ∧ p d = p c := by
  cases hc : isBeyondAscii c with
  | false => exact ⟨c, h.peek_ascii hc, rfl⟩
  | true =>
      obtain ⟨d, hpeek, hd⟩ := h.peek_beyond hc
      exact ⟨d, hpeek, hp d c hd hc⟩

theorem eatWhile_eq {p : Char → Bool} (hp : TellsAsciiOnly p)
    (h : Stands s before after) : s.eatWhile p = s.skip (after.takeWhile p) := by
  rw [eatWhile_eq_takeWhile, h.ahead_eq, hp.takeWhile_byteChars, length_byteChars, Scan.skip]

theorem eatUntil_eq {c : Char} (hc : isBeyondAscii c = false)
    (h : Stands s before after) :
    s.eatUntil c = s.skip (after.takeWhile (· != c)) :=
  h.eatWhile_eq (tells_bne hc)

theorem startsWith_eq_false {d : Char} (hpeek : s.peek = some d)
    (hd : isBeyondAscii d) {c : Char} {cs : Text}
    (hc : isBeyondAscii c = false) : s.startsWith (c :: cs) = false := by
  have hne : d ≠ c := ne_of_beyond hd hc
  have hfirst : s.peekAt 0 = some d := hpeek
  simp [startsWith, startsWithAt, hfirst, hne]

theorem eatThrough_eq {c : Char} {cs : Text} (hascii : isAscii (c :: cs))
    (h : Stands s before after) :
    s.eatThrough (c :: cs) = s.skip (after.take (throughLength (c :: cs) after)) := by
  rw [eatThrough_eq_throughLength, h.ahead_eq, throughLength_byteChars hascii, Scan.skip]

end Stands

end Scan

end SourceMarkup
