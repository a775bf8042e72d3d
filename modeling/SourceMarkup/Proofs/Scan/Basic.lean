import SourceMarkup.Lexeme.Basic
import SourceMarkup.Proofs.Text.Bytes
import SourceMarkup.Proofs.Text.Slice

/-!
# Where a scan stands

`Stands s before after` says that the cursor of `s` is between two characters: the
source is `before ++ after`, and the cursor is where `after` begins. What a scan
reads there is told by `after`, and `skip t` moves the cursor over a text `t` that
`after` begins with. The main statements move a scan that stands somewhere by one
of its loops: the cursor then stands again between two characters, and how far
it has come is counted in characters.

A loop may leave the cursor inside a character on the way, after the byte that a
backslash skips or between two rounds. `loop_pass` carries it on to the end of
the character, as every byte there lies beyond ASCII.
-/

namespace SourceMarkup

open Text

namespace Round

theorem loop_done {σ : Type} {left : σ → Nat} {round : σ → Round σ} {s t : σ}
    (h : round s = .done t) : loop left round s = t := by
  rw [loop, h]

theorem loop_again {σ : Type} {left : σ → Nat} {round : σ → Round σ} {s t : σ}
    (h : round s = .again t) (hlt : left t < left s) :
    loop left round s = loop left round t := by
  rw [loop, h]
  exact if_pos hlt

end Round

namespace Scan

/-! ### The bytes ahead -/

def ahead (s : Scan) : Text :=
  (s.bytes.toList.drop s.pos).map charOfByte

theorem length_ahead (s : Scan) : s.ahead.length = s.left := by
  rw [ahead, List.length_map, List.length_drop, Array.length_toList, left]

theorem peekAt_eq_getElem? (s : Scan) (n : Nat) : s.peekAt n = s.ahead[n]? := by
  rw [peekAt, ahead, List.getElem?_map, List.getElem?_drop, Array.getElem?_toList]

theorem peek_eq_head? (s : Scan) : s.peek = s.ahead.head? := by
  rw [peek, peekAt_eq_getElem?, List.head?_eq_getElem?]

theorem startsWithAt_eq_isPrefixOf (s : Scan) (n : Nat) (t : Text) :
    s.startsWithAt n t = t.isPrefixOf (s.ahead.drop n) := by
  induction t generalizing n with
  | nil => simp [startsWithAt]
  | cons c cs ih =>
      rw [startsWithAt, peekAt_eq_getElem?, ih]
      cases hn : s.ahead[n]? with
      | none =>
          rw [List.drop_eq_nil_of_le (List.getElem?_eq_none_iff.1 hn)]
          rfl
      | some d =>
          obtain ⟨hlt, hget⟩ := List.getElem?_eq_some_iff.1 hn
          rw [List.drop_eq_getElem_cons hlt, hget, List.isPrefixOf_cons_cons,
            Option.some_beq_some, Bool.beq_comm]

theorem startsWith_eq_isPrefixOf (s : Scan) (t : Text) :
    s.startsWith t = t.isPrefixOf s.ahead :=
  s.startsWithAt_eq_isPrefixOf 0 t

theorem pos_lt_of_peek {s : Scan} {c : Char} (h : s.peek = some c) : s.pos < s.bytes.size := by
  obtain ⟨b, hb, -⟩ := Option.map_eq_some_iff.1 h
  exact (Array.getElem?_eq_some_iff.1 hb).1

theorem bump_one_of_peek {s : Scan} {c : Char} (h : s.peek = some c) :
    s.bump 1 = { s with pos := s.pos + 1 } := by
  have hle : s.pos + 1 ≤ s.bytes.size := pos_lt_of_peek h
  rw [bump, Nat.min_eq_left hle]

/-! ### Between two characters -/

/-- The scan with the cursor after a text that it stands before. -/
def skip (t : Text) (s : Scan) : Scan :=
  { s with pos := s.pos + t.byteLength }

@[simp] theorem skip_nil (s : Scan) : s.skip [] = s := rfl

@[simp] theorem skip_skip (s : Scan) (t u : Text) :
    (s.skip t).skip u = s.skip (t ++ u) := by
  simp [skip, Nat.add_assoc]

@[simp] theorem skip_pos (s : Scan) (t : Text) :
    (s.skip t).pos = s.pos + t.byteLength := rfl

/-- The cursor of a scan stands before `after`, and after `before`. -/
structure Stands (s : Scan) (before after : Text) : Prop where
  bytes_eq : s.bytes.toList = (before ++ after).toBytes
  pos_eq : s.pos = before.byteLength

theorem stands_start (source : Text) : Stands (start source) [] source :=
  ⟨rfl, rfl⟩

namespace Stands

variable {s : Scan} {before after : Text}

theorem skip {t : Text} (h : Stands s before (t ++ after)) :
    Stands (s.skip t) (before ++ t) after where
  bytes_eq := by rw [List.append_assoc]; exact h.bytes_eq
  pos_eq := by rw [skip_pos, h.pos_eq, byteLength_append]

theorem skip_cons {c : Char} (h : Stands s before (c :: after)) :
    Stands (s.skip [c]) (before ++ [c]) after :=
  skip (t := [c]) h

theorem emitRange (h : Stands s before after) (kind : TokenKind)
    (start stop : Nat) : Stands (s.emitRange kind start stop) before after := by
  unfold Scan.emitRange
  split
  · exact ⟨h.bytes_eq, h.pos_eq⟩
  · exact h

theorem size_eq (h : Stands s before after) :
    s.bytes.size = s.pos + after.byteLength := by
  rw [← Array.length_toList, h.bytes_eq, length_toBytes, byteLength_append, h.pos_eq]

theorem left_eq (h : Stands s before after) : s.left = after.byteLength := by
  rw [left, h.size_eq, Nat.add_sub_cancel_left]

/-! ### What a scan reads -/

theorem ahead_eq (h : Stands s before after) : s.ahead = byteChars after := by
  have hlen : s.pos = before.toBytes.length := by rw [length_toBytes, h.pos_eq]
  rw [ahead, h.bytes_eq, hlen, toBytes_append, List.drop_left, byteChars]

theorem peekAt_eq (h : Stands s before after) (n : Nat) :
    s.peekAt n = (byteChars after)[n]? := by
  rw [peekAt_eq_getElem?, h.ahead_eq]

theorem peek_eq (h : Stands s before after) : s.peek = (byteChars after).head? := by
  rw [peek_eq_head?, h.ahead_eq]

theorem peek_nil (h : Stands s before []) : s.peek = none :=
  h.peek_eq

theorem peek_ascii {c : Char} {cs : Text} (h : Stands s before (c :: cs))
    (hc : isBeyondAscii c = false) : s.peek = some c := by
  rw [h.peek_eq, byteChars_cons, charBytes_of_ascii hc]
  rfl

theorem peek_beyond {c : Char} {cs : Text} (h : Stands s before (c :: cs))
    (hc : isBeyondAscii c) : ∃ d, s.peek = some d ∧ isBeyondAscii d := by
  obtain ⟨d, ds, hds⟩ := charBytes_eq_cons c
  refine ⟨d, ?_, isBeyondAscii_of_mem_charBytes hc (hds ▸ List.mem_cons_self)⟩
  rw [h.peek_eq, byteChars_cons, hds]
  rfl

/-- A condition that tells ASCII characters apart sees a character in its first
byte. -/
theorem peekAt_any {p : Char → Bool} (hp : TellsAsciiOnly p) {t : Text}
    (h : Stands s before (t ++ after)) :
    (s.peekAt t.byteLength).any p = after.head?.any p := by
  rw [h.peekAt_eq, byteChars_append, List.getElem?_append_right (by simp),
    length_byteChars, Nat.sub_self, ← List.head?_eq_getElem?, hp.head?_any]

/-- An ASCII character is seen where it stands, and nowhere else. -/
theorem peekAt_beq {c : Char} (hc : isBeyondAscii c = false) {t : Text}
    (h : Stands s before (t ++ after)) :
    (s.peekAt t.byteLength == some c) = (after.head? == some c) := by
  have htells : TellsAsciiOnly (· == c) :=
    tells_of_false fun d hd => beq_false_of_ne (ne_of_beyond hd hc)
  have hbeq : ∀ o : Option Char, (o == some c) = o.any (· == c) := by
    intro o
    cases o <;> rfl
  rw [hbeq, hbeq, h.peekAt_any htells]

theorem peekAt_one_any {p : Char → Bool} (hp : TellsAsciiOnly p) {c : Char}
    (h : Stands s before (c :: after)) (hc : isBeyondAscii c = false) :
    (s.peekAt 1).any p = after.head?.any p := by
  have hpeek := Stands.peekAt_any hp (t := [c]) h
  rwa [byteLength_cons, utf8Size_of_ascii hc] at hpeek

theorem peekAt_one_beq {c d : Char} (hd : isBeyondAscii d = false)
    (h : Stands s before (c :: after)) (hc : isBeyondAscii c = false) :
    (s.peekAt 1 == some d) = (after.head? == some d) := by
  have hpeek := Stands.peekAt_beq hd (t := [c]) h
  rwa [byteLength_cons, utf8Size_of_ascii hc] at hpeek

/-- A scan sees an ASCII text where the rest of the source starts with it. -/
theorem startsWith_eq (h : Stands s before after) {p : Text} (hp : p.isAscii) :
    s.startsWith p = p.isPrefixOf after := by
  rw [startsWith_eq_isPrefixOf, h.ahead_eq, isPrefixOf_byteChars hp]

theorem exists_of_startsWith (h : Stands s before after) {p : Text} (hp : p.isAscii)
    (hstarts : s.startsWith p = true) : ∃ rest, after = p ++ rest := by
  rw [h.startsWith_eq hp] at hstarts
  obtain ⟨rest, hrest⟩ := List.isPrefixOf_iff_prefix.1 hstarts
  exact ⟨rest, hrest.symm⟩

/-- A text is not seen where its second character does not follow its first. -/
theorem startsWith_of_second {c d e : Char} {w : Text}
    (h : Stands s before (c :: after)) (hascii : isAscii (d :: e :: w))
    (hsecond : c = d → after.head? ≠ some e) : s.startsWith (d :: e :: w) = false := by
  rw [Bool.eq_false_iff]
  intro hstarts
  obtain ⟨rest, hrest⟩ := h.exists_of_startsWith hascii hstarts
  refine hsecond (List.cons.inj hrest).1 ?_
  rw [(List.cons.inj hrest).2]
  rfl

theorem bump_eq {t : Text} (h : Stands s before (t ++ after)) {n : Nat}
    (hn : n = t.byteLength) : s.bump n = s.skip t := by
  have hsize := h.size_eq
  rw [byteLength_append] at hsize
  have hle : s.pos + n ≤ s.bytes.size := by omega
  rw [bump, Nat.min_eq_left hle, hn, Scan.skip]

/-- At the end a scan goes no further. -/
theorem bump_eq_of_le (h : Stands s before after) {n : Nat}
    (hn : after.byteLength ≤ n) : s.bump n = s.skip after := by
  have hle : s.bytes.size ≤ s.pos + n := by
    rw [h.size_eq]
    omega
  rw [bump, Nat.min_eq_right hle, h.size_eq, Scan.skip]

/-- What a scan reads between its old and its new place. -/
theorem slice_skip {t : Text} (h : Stands s before (t ++ after)) :
    (s.skip t).slice s.pos (s.skip t).pos = byteChars t := by
  have hlen : (before.toBytes).length = s.pos := by rw [length_toBytes, h.pos_eq]
  have hbytes : (s.skip t).bytes.toList = before.toBytes ++ (t ++ after).toBytes := by
    rw [← toBytes_append]
    exact h.bytes_eq
  rw [slice, Array.toList_extract, hbytes, List.extract_eq_take_drop,
    List.drop_append_of_le_length (by omega), List.drop_eq_nil_of_le (by omega),
    List.nil_append, skip_pos, Nat.add_sub_cancel_left, toBytes_append, ← length_toBytes,
    List.take_left, byteChars]

/-! ### Passing a character -/

theorem left_bump {c : Char} (h : s.peek = some c) {n : Nat} (hn : n ≠ 0) :
    (s.bump n).left < s.left := by
  have hlt := pos_lt_of_peek h
  simp only [left, bump]
  omega

end Stands

section Loop

variable {σ : Type} {measure : σ → Nat} {round : σ → Round σ} (put : Scan → σ)

/-- A round that steps over every byte beyond ASCII is repeated over any number
of them. -/
theorem loop_pass (hmeasure : ∀ s, measure (put s) = s.left)
    (hround : ∀ s d, s.peek = some d → isBeyondAscii d →
      round (put s) = .again (put (s.bump 1)))
    (n : Nat) (s : Scan)
    (h : ∀ i < n, ∃ d, s.peekAt i = some d ∧ isBeyondAscii d) :
    Round.loop measure round (put s) =
      Round.loop measure round (put { s with pos := s.pos + n }) := by
  induction n generalizing s with
  | zero => rfl
  | succ n ih =>
      obtain ⟨d, hpeek, hd⟩ := h 0 (Nat.succ_pos n)
      have hlt : measure (put (s.bump 1)) < measure (put s) := by
        rw [hmeasure, hmeasure]
        exact Stands.left_bump hpeek Nat.one_ne_zero
      rw [Round.loop_again (hround s d hpeek hd) hlt, bump_one_of_peek hpeek, ih]
      · simp only [Nat.add_assoc, Nat.add_comm 1 n]
      · intro i hi
        obtain ⟨e, he, hbeyond⟩ := h (i + 1) (Nat.succ_lt_succ hi)
        refine ⟨e, ?_, hbeyond⟩
        rw [← he]
        simp only [peekAt, Nat.add_assoc, Nat.add_comm 1 i]

variable {s : Scan} {before after : Text}

/-- A round that steps over every byte beyond ASCII steps over a character beyond
ASCII. -/
theorem loop_skip_beyond (hmeasure : ∀ s, measure (put s) = s.left)
    (hround : ∀ s d, s.peek = some d → isBeyondAscii d →
      round (put s) = .again (put (s.bump 1)))
    {c : Char} (h : Stands s before (c :: after)) (hc : isBeyondAscii c) :
    Round.loop measure round (put s) =
      Round.loop measure round (put (s.skip [c])) := by
  have hbytes : ∀ i < c.utf8Size, ∃ d, s.peekAt i = some d ∧ isBeyondAscii d := by
    intro i hi
    have hlen : i < (charBytes c).length := by rwa [length_charBytes]
    refine ⟨(charBytes c)[i], ?_,
      isBeyondAscii_of_mem_charBytes hc (List.getElem_mem hlen)⟩
    rw [h.peekAt_eq, byteChars_cons, List.getElem?_append_left hlen,
      List.getElem?_eq_getElem hlen]
  exact loop_pass put hmeasure hround c.utf8Size s hbytes

theorem loop_skip_of_bump (hmeasure : ∀ s, measure (put s) = s.left)
    {t : Text} (ht : t ≠ []) (h : Stands s before (t ++ after)) {n : Nat}
    (hbump : s.bump n = s.skip t) (hround : round (put s) = .again (put (s.bump n))) :
    Round.loop measure round (put s) =
      Round.loop measure round (put (s.skip t)) := by
  have hlt : measure (put (s.skip t)) < measure (put s) := by
    have hpos := byteLength_pos ht
    rw [hmeasure, hmeasure, h.skip.left_eq, h.left_eq, byteLength_append]
    omega
  rw [hbump] at hround
  exact Round.loop_again hround hlt

/-- A round that skips an ASCII character and the byte after it skips the
character that this byte begins, if there is one. -/
theorem loop_skip_escape (hmeasure : ∀ s, measure (put s) = s.left)
    (hround : ∀ s d, s.peek = some d → isBeyondAscii d →
      round (put s) = .again (put (s.bump 1)))
    {c : Char} {cs : Text} (h : Stands s before (c :: cs))
    (hc : isBeyondAscii c = false) (hescape : round (put s) = .again (put (s.bump 2))) :
    Round.loop measure round (put s) =
      Round.loop measure round (put (s.skip (c :: cs.take 1))) := by
  obtain _ | ⟨d, after⟩ := cs
  · have hbump : s.bump 2 = s.skip [c] :=
      h.bump_eq_of_le (by simp [utf8Size_of_ascii hc])
    exact loop_skip_of_bump put hmeasure (List.cons_ne_nil c []) h hbump hescape
  have hlt : measure (put (s.bump 2)) < measure (put s) := by
    rw [hmeasure, hmeasure]
    exact Stands.left_bump (h.peek_ascii hc) (by omega)
  have hsize : s.pos + 2 ≤ s.bytes.size := by
    have hpos := d.utf8Size_pos
    rw [h.size_eq, byteLength_cons, byteLength_cons, utf8Size_of_ascii hc]
    omega
  have hbump : s.bump 2 = { s with pos := s.pos + 2 } := by
    simp only [bump, Nat.min_eq_left hsize]
  have hlen : s.pos + 2 + (d.utf8Size - 1) = s.pos + byteLength [c, d] := by
    have hpos := d.utf8Size_pos
    rw [byteLength_cons, byteLength_cons, byteLength_nil, utf8Size_of_ascii hc]
    omega
  rw [Round.loop_again hescape hlt, hbump,
    loop_pass put hmeasure hround (d.utf8Size - 1)]
  · simp only [hlen]
    rfl
  · intro i hi
    have hbeyond : isBeyondAscii d := by
      cases hd : isBeyondAscii d with
      | true => rfl
      | false => rw [utf8Size_of_ascii hd] at hi; omega
    have hlen : i + 1 < (charBytes d).length := by
      rw [length_charBytes]
      omega
    refine ⟨(charBytes d)[i + 1], ?_,
      isBeyondAscii_of_mem_charBytes hbeyond (List.getElem_mem hlen)⟩
    have hpeek := h.peekAt_eq (i + 2)
    rw [byteChars_cons, byteChars_cons, charBytes_of_ascii hc, List.singleton_append,
      List.getElem?_cons_succ, List.getElem?_append_left hlen,
      List.getElem?_eq_getElem hlen] at hpeek
    rw [← hpeek]
    simp only [peekAt, Nat.add_assoc, Nat.add_comm 2 i]

/-- A round that steps over a character goes on after it. -/
theorem loop_skip (hmeasure : ∀ s, measure (put s) = s.left)
    {c : Char} (h : Stands s before (c :: after))
    (hbeyond : isBeyondAscii c → ∀ s d, s.peek = some d → isBeyondAscii d →
      round (put s) = .again (put (s.bump 1)))
    (hascii : isBeyondAscii c = false → round (put s) = .again (put (s.bump 1))) :
    Round.loop measure round (put s) =
      Round.loop measure round (put (s.skip [c])) := by
  cases hc : isBeyondAscii c with
  | true => exact loop_skip_beyond put hmeasure (hbeyond hc) h hc
  | false =>
      have hbump : s.bump 1 = s.skip [c] :=
        Stands.bump_eq (t := [c]) h (by simp [utf8Size_of_ascii hc])
      exact loop_skip_of_bump put hmeasure (List.cons_ne_nil c []) h hbump (hascii hc)

end Loop

end Scan

end SourceMarkup
