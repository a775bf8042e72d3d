import SourceMarkup.Proofs.Scan.Basic

/-!
# Scans tell no bytes beyond ASCII apart

`blur` replaces every byte beyond ASCII by one and the same such byte. It commutes with all
that a scan does: a condition that a scan puts to a byte has one answer for all bytes beyond
ASCII, and every text that a scan looks for is ASCII. So a scan of a blurred source goes
through the blurred states of the scan of the source, and finds the same tokens, also where
the blurred bytes are no encoding of a text or where an escape ends inside a character.
-/

namespace SourceMarkup

namespace Text

def blurByte (b : UInt8) : UInt8 :=
  if b.toNat < 128 then b else 128

def blurChar (c : Char) : Char :=
  if isBeyondAscii c then charOfByte 128 else c

variable {p : Char → Bool} {c d : Char}

theorem charOfByte_blurByte (b : UInt8) : charOfByte (blurByte b) = blurChar (charOfByte b) := by
  unfold blurByte blurChar isBeyondAscii
  rw [toNat_charOfByte]
  by_cases hb : b.toNat < 128
  · rw [if_pos hb, if_neg (by simpa using hb)]
  · rw [if_neg hb, if_pos (by simpa using hb)]

theorem blurChar_of_ascii (hc : isBeyondAscii c = false) : blurChar c = c := by
  rw [blurChar, hc, if_neg Bool.false_ne_true]

theorem isBeyondAscii_blurChar (hc : isBeyondAscii c) : isBeyondAscii (blurChar c) := by
  rw [blurChar, if_pos hc]
  decide

theorem blurChar_eq_iff (hd : isBeyondAscii d = false) : blurChar c = d ↔ c = d := by
  cases hc : isBeyondAscii c with
  | false => rw [blurChar_of_ascii hc]
  | true =>
      have hne : c ≠ d := ne_of_beyond hc hd
      have hblur : blurChar c ≠ d := ne_of_beyond (isBeyondAscii_blurChar hc) hd
      exact iff_of_false hblur hne

theorem TellsAsciiOnly.apply_blurChar (hp : TellsAsciiOnly p) (c : Char) :
    p (blurChar c) = p c := by
  cases hc : isBeyondAscii c with
  | false => rw [blurChar_of_ascii hc]
  | true => exact hp _ _ (isBeyondAscii_blurChar hc) hc

theorem TellsAsciiOnly.any_map_blurChar (hp : TellsAsciiOnly p) (o : Option Char) :
    (o.map blurChar).any p = o.any p := by
  cases o with
  | none => rfl
  | some c => exact hp.apply_blurChar c

theorem map_blurChar_beq (hd : isBeyondAscii d = false) (o : Option Char) :
    (o.map blurChar == some d) = (o == some d) := by
  cases o with
  | none => rfl
  | some c => rw [Option.map_some, Bool.eq_iff_iff]; simpa using blurChar_eq_iff hd

theorem map_blurChar_eq_iff {t u : Text} (hu : u.isAscii) : t.map blurChar = u ↔ t = u := by
  induction t generalizing u with
  | nil => rfl
  | cons c cs ih =>
      cases u with
      | nil => simp
      | cons d ds =>
          obtain ⟨hd, hds⟩ := isAscii_cons_iff.1 hu
          rw [List.map_cons, List.cons.injEq, List.cons.injEq, blurChar_eq_iff hd, ih hds]

end Text

open Text

namespace Round

def map {σ τ : Type} (f : σ → τ) : Round σ → Round τ
  | again s => again (f s)
  | done s => done (f s)

@[simp] theorem map_again {σ τ : Type} (f : σ → τ) (s : σ) : (again s).map f = again (f s) :=
  rfl

@[simp] theorem map_done {σ τ : Type} (f : σ → τ) (s : σ) : (done s).map f = done (f s) :=
  rfl

/-- A function of states that rounds commute with commutes with the loop. -/
theorem loop_map {σ τ : Type} {left : σ → Nat} {left' : τ → Nat} {round : σ → Round σ}
    {round' : τ → Round τ} (f : σ → τ) (hleft : ∀ s, left' (f s) = left s)
    (hround : ∀ s, round' (f s) = (round s).map f) (s : σ) :
    loop left' round' (f s) = f (loop left round s) := by
  fun_induction loop left round s with
  | case1 s t hdone => rw [loop, hround, hdone]; rfl
  | case2 s t hagain hlt ih =>
      rw [← ih]
      refine loop_again ?_ ?_
      · rw [hround, hagain]; rfl
      · rwa [hleft, hleft]
  | case3 s t hagain hlt =>
      rw [loop, hround, hagain]
      refine if_neg ?_
      rwa [hleft, hleft]

end Round

namespace Scan

/-- The scan of the source in which every byte beyond ASCII is the same one. -/
def blur (s : Scan) : Scan :=
  { s with bytes := s.bytes.map blurByte }

variable {s : Scan} {p : Char → Bool} {c : Char}

@[simp] theorem blur_pos (s : Scan) : s.blur.pos = s.pos := rfl

@[simp] theorem blur_tokens (s : Scan) : s.blur.tokens = s.tokens := rfl

@[simp] theorem blur_left (s : Scan) : s.blur.left = s.left := by
  simp [left, blur]

@[simp] theorem peekAt_blur (s : Scan) (n : Nat) :
    s.blur.peekAt n = (s.peekAt n).map blurChar := by
  simp only [peekAt, blur, Array.getElem?_map, Option.map_map]
  congr 1
  exact funext charOfByte_blurByte

@[simp] theorem peek_blur (s : Scan) : s.blur.peek = s.peek.map blurChar :=
  s.peekAt_blur 0

theorem startsWithAt_blur {t : Text} (ht : t.isAscii) (s : Scan) (n : Nat) :
    s.blur.startsWithAt n t = s.startsWithAt n t := by
  induction t generalizing n with
  | nil => rfl
  | cons d ds ih =>
      obtain ⟨hd, hds⟩ := isAscii_cons_iff.1 ht
      rw [startsWithAt, startsWithAt, peekAt_blur, map_blurChar_beq hd, ih hds]

theorem startsWith_blur {t : Text} (ht : t.isAscii) (s : Scan) :
    s.blur.startsWith t = s.startsWith t :=
  s.startsWithAt_blur ht 0

@[simp] theorem slice_blur (s : Scan) (start stop : Nat) :
    s.blur.slice start stop = (s.slice start stop).map blurChar := by
  simp only [slice, blur, Array.toList_extract, Array.toList_map, List.extract_eq_take_drop,
    List.map_take, List.map_drop, List.map_map]
  congr 3
  exact funext charOfByte_blurByte

@[simp] theorem bump_blur (n : Nat) (s : Scan) : s.blur.bump n = (s.bump n).blur := by
  simp [bump, blur]

@[simp] theorem emitRange_blur (kind : TokenKind) (start stop : Nat) (s : Scan) :
    s.blur.emitRange kind start stop = (s.emitRange kind start stop).blur := by
  unfold emitRange
  split <;> rfl

@[simp] theorem emit_blur (kind : TokenKind) (start : Nat) (s : Scan) :
    s.blur.emit kind start = (s.emit kind start).blur :=
  s.emitRange_blur kind start s.pos

theorem whileRound_blur (hp : TellsAsciiOnly p) (s : Scan) :
    whileRound p s.blur = (whileRound p s).map blur := by
  unfold whileRound
  rw [peek_blur]
  cases s.peek with
  | none => rfl
  | some c =>
      simp only [Option.map_some, hp.apply_blurChar, bump_blur]
      split <;> rfl

theorem eatWhile_blur (hp : TellsAsciiOnly p) (s : Scan) :
    s.blur.eatWhile p = (s.eatWhile p).blur :=
  Round.loop_map blur blur_left (whileRound_blur hp) s

theorem eatUntil_blur (hc : isBeyondAscii c = false) (s : Scan) :
    s.blur.eatUntil c = (s.eatUntil c).blur :=
  eatWhile_blur (tells_bne hc) s

theorem throughRound_blur {t : Text} (ht : t.isAscii) (s : Scan) :
    throughRound t s.blur = (throughRound t s).map blur := by
  unfold throughRound
  rw [peek_blur]
  cases s.peek with
  | none => rfl
  | some c =>
      simp only [Option.map_some, startsWith_blur ht, bump_blur]
      split <;> rfl

theorem eatThrough_blur {t : Text} (ht : t.isAscii) (s : Scan) :
    s.blur.eatThrough t = (s.eatThrough t).blur :=
  Round.loop_map blur blur_left (throughRound_blur ht) s

end Scan

end SourceMarkup
