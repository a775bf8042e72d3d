import Mathlib.Algebra.Group.Nat.Defs
import SourceMarkup.Proofs.Markup.Decoding

/-!
# References by number

The decoder does not limit the number that a reference is written with, but its digits:
there may be five decimal or four hexadecimal ones. A number that is written as short as
it can be has at most `k` digits if and only if it is less than the `k`th power of the
base, so references in hexadecimal end with 16 bits, but decimal ones go on to 99999. In
between the two ways to write a number come to different results.

A numeral that is longer than a reference is looked for is refused too; the error shows
what has been looked at.
-/

namespace SourceMarkup

open Text

namespace Markup

namespace Reference

/-- Digits that write a number in a base, as few as there can be. -/
structure Shortest (base : Nat) (digits : Text) (n : Nat) : Prop where
  numeral : Numeral base digits n
  ne_nil : digits ≠ []
  le_length : ∀ ds, ds ≠ [] → Numeral base ds n → digits.length ≤ ds.length

def IsSurrogate (n : Nat) : Prop :=
  0xD800 ≤ n ∧ n ≤ 0xDFFF

instance (n : Nat) : Decidable (IsSurrogate n) :=
  inferInstanceAs (Decidable (0xD800 ≤ n ∧ n ≤ 0xDFFF))

/-- What is made of a reference to the code point `n` that is a text on its own, where
code points may be up to `limit`. An error shows the reference as far as it has been
looked at. -/
def resultUpTo (limit n : Nat) (reference : Text) : Except ReferenceError Text :=
  if n ≤ limit ∧ ¬ IsSurrogate n then .ok [Char.ofNat n]
  else .error (.invalidCodePoint (reference.take (maxBody + 2)) 0)

variable {base most n : Nat} {body digits : Text}

/-! ### Numerals -/

theorem digit?_lt {c : Char} {d : Nat} (h : digit? base c = some d) : d < base := by
  simpa using (Option.filter_eq_some_iff.1 h).2

theorem digit?_digitChar {d : Nat} (hbase : base ≤ 16) (hd : d < base) :
    digit? base d.digitChar = some d := by
  have hhex : ∀ d < 16, hexDigit? d.digitChar = some d := by decide
  rw [digit?, hhex d (Nat.lt_of_lt_of_le hd hbase), Option.filter_some, if_pos (by simpa)]

theorem Numeral.lt_pow (h : Numeral base digits n) : n < base ^ digits.length := by
  induction h with
  | nil => simp
  | @snoc digits n c d hdigits hc ih =>
      have hd := digit?_lt hc
      rw [List.length_append, List.length_singleton]
      calc n * base + d
          < n * base + base := Nat.add_lt_add_left hd _
        _ = (n + 1) * base := (Nat.succ_mul n base).symm
        _ ≤ base ^ digits.length * base := Nat.mul_le_mul_right base ih
        _ = base ^ (digits.length + 1) := (Nat.pow_succ base _).symm

theorem numeral_toDigits (hbase : 1 < base) (hhex : base ≤ 16) (n : Nat) :
    Numeral base (Nat.toDigits base n) n := by
  induction n using Nat.strongRecOn with
  | ind n ih =>
      rw [Nat.toDigits_eq_if hbase]
      split
      · next hn =>
          have hdigit := Numeral.nil.snoc (digit?_digitChar hhex hn)
          rwa [Nat.zero_mul, Nat.zero_add] at hdigit
      · next hn =>
          have hfront := ih (n / base) (Nat.div_lt_self (by omega) hbase)
          have hdigits := hfront.snoc (digit?_digitChar hhex (Nat.mod_lt n (by omega)))
          rwa [Nat.div_add_mod'] at hdigits

/-- Every number has a shortest numeral. -/
theorem shortest_toDigits (hbase : 1 < base) (hhex : base ≤ 16) (n : Nat) :
    Shortest base (Nat.toDigits base n) n where
  numeral := numeral_toDigits hbase hhex n
  ne_nil := List.ne_nil_of_length_pos Nat.length_toDigits_pos
  le_length := fun _ hne hds =>
    (Nat.length_toDigits_le_iff hbase (List.length_pos_iff.2 hne)).2 hds.lt_pow

theorem Shortest.length_le_iff (h : Shortest base digits n) (hbase : 1 < base)
    (hhex : base ≤ 16) (hmost : 0 < most) : digits.length ≤ most ↔ n < base ^ most := by
  constructor
  · intro hlength
    exact Nat.lt_of_lt_of_le h.numeral.lt_pow (Nat.pow_le_pow_right (by omega) hlength)
  · intro hn
    have hdigits := numeral_toDigits hbase hhex n
    have hshort := h.le_length _ (List.ne_nil_of_length_pos Nat.length_toDigits_pos) hdigits
    exact Nat.le_trans hshort ((Nat.length_toDigits_le_iff hbase hmost).2 hn)

/-! ### References -/

theorem decode_of_reference {c : Char} (h : Begins (body ++ [';']) (.reference c body)) :
    decode (written body) = .ok [c] := by
  have hreplaced : Replaced (('&' :: body ++ [';']) ++ []) [c] := .cons (.reference h) .nil
  rw [List.append_nil] at hreplaced
  exact reads_decodeFrom.of_row hreplaced 0

theorem decode_of_malformed {rest : Text} {error : Nat → ReferenceError}
    (h : Begins rest (.malformed error)) : decode ('&' :: rest) = .error (error 0) := by
  rw [decode, decodeFrom_ampersand h]
  rfl

/-- What the two notations of a number have in common. -/
theorem IsNumeric.bounds (h : IsNumeric body base most digits) :
    1 < base ∧ base ≤ 16 ∧ 0 < most ∧ most < maxBody - 2 ∧
      ∃ more, body = '#' :: more ∧ more.length ≤ digits.length + 1 := by
  cases h with
  | hexadecimal hx digits => exact ⟨by decide, by decide, by decide, by decide, _, rfl, by simp⟩
  | decimal _ _ => exact ⟨by decide, by decide, by decide, by decide, _, rfl, by simp⟩

theorem IsNumeric.not_mem (h : IsNumeric body base most digits) (hdigits : ';' ∉ digits) :
    ';' ∉ body := by
  cases h with
  | hexadecimal hx digits => rcases hx with rfl | rfl <;> simp [hdigits]
  | decimal _ _ => simp [hdigits]

/-- A reference to a number in its shortest form is replaced if the number is a scalar
value and has no more digits than there may be. -/
theorem decode_of_isNumeric (hbody : IsNumeric body base most digits)
    (h : Shortest base digits n) :
    decode (written body) =
      if n < base ^ most ∧ n.isValidChar then .ok [Char.ofNat n]
      else .error (.invalidCodePoint ((written body).take (maxBody + 2)) 0) := by
  obtain ⟨hbase, hhex, hmost, hnear, more, hmore, hlength⟩ := hbody.bounds
  have hsemicolon : ';' ∉ body := hbody.not_mem (h.numeral.not_mem (by decide))
  have hdigits := h.length_le_iff hbase hhex hmost
  by_cases hbodyLength : body.length ≤ maxBody
  · have hends : HasBody (body ++ [';']) body := ⟨hsemicolon, hbodyLength, [], rfl⟩
    have htake : (written body).take (maxBody + 2) = written body :=
      List.take_of_length_le (by simp [written]; omega)
    rw [htake]
    by_cases hn : n < base ^ most
    · by_cases hvalid : n.isValidChar
      · have hchar : (Char.ofNat n).toNat = n := by
          rw [Char.ofNat, dif_pos hvalid]
          rfl
        rw [if_pos ⟨hn, hvalid⟩]
        exact decode_of_reference
          (.number hends hbody h.ne_nil (hdigits.2 hn) (hchar.symm ▸ h.numeral))
      · rw [if_neg fun hboth => hvalid hboth.2]
        exact decode_of_malformed
          (.noScalar hends hbody h.ne_nil (hdigits.2 hn) h.numeral hvalid)
    · rw [if_neg fun hboth => hn hboth.1]
      exact decode_of_malformed
        (.manyDigits hends hbody (Nat.lt_of_not_le fun hle => hn (hdigits.1 hle)))
  · -- The semicolon is out of reach, and there are more digits than there may be.
    have hlong : ¬ n < base ^ most := fun hn => by
      have hfew := hdigits.2 hn
      rw [hmore, List.length_cons] at hbodyLength
      omega
    have hopen : IsOpen (body ++ [';']) := by
      rw [IsOpen, List.take_append_of_le_length (by omega)]
      exact fun hmem => hsemicolon (List.mem_of_mem_take hmem)
    have hrest : body ++ [';'] = '#' :: (more ++ [';']) := by rw [hmore]; rfl
    rw [if_neg fun hboth => hlong hboth.1]
    have hdecode := decode_of_malformed (.openNumber hopen hrest)
    rw [hmore] at hdecode ⊢
    exact hdecode

/-! ### Both notations -/

theorem Shortest.isNumeric_decimal (h : Shortest 10 digits n) :
    IsNumeric ('#' :: digits) 10 5 digits := by
  have hlower : 'x' ∉ digits := h.numeral.not_mem (by decide)
  have hupper : 'X' ∉ digits := h.numeral.not_mem (by decide)
  exact .decimal (fun hx => hlower (List.mem_of_head? hx))
    fun hx => hupper (List.mem_of_head? hx)

/-- Below the last scalar value, surrogates are the only numbers that are none. -/
theorem resultUpTo_eq {bound limit : Nat} (hlimit : limit + 1 = bound)
    (hbound : bound ≤ 0x110000) (n : Nat) (reference : Text) :
    resultUpTo limit n reference =
      if n < bound ∧ n.isValidChar then .ok [Char.ofNat n]
      else .error (.invalidCodePoint (reference.take (maxBody + 2)) 0) := by
  refine if_congr ?_ rfl rfl
  rw [IsSurrogate, Nat.isValidChar]
  omega

theorem decode_decimal (h : Shortest 10 digits n) :
    decode (written ('#' :: digits)) =
      resultUpTo 99999 n (written ('#' :: digits)) := by
  rw [resultUpTo_eq (by decide : _ = 10 ^ 5) (by decide)]
  exact decode_of_isNumeric h.isNumeric_decimal h

theorem decode_hexadecimal {x : Char} (hx : x = 'x' ∨ x = 'X') (h : Shortest 16 digits n) :
    decode (written ('#' :: x :: digits)) =
      resultUpTo 0xFFFF n (written ('#' :: x :: digits)) := by
  rw [resultUpTo_eq (by decide : _ = 16 ^ 4) (by decide)]
  exact decode_of_isNumeric (.hexadecimal hx digits) h

/-- References to a number in its shortest form are replaced by its character up to 99999
in decimal and up to 16 bits in hexadecimal, except for surrogates, and are no valid code
points otherwise. So both notations come to the same, unless the number has more than 16
bits and no more than five decimal digits. -/
theorem decode_shortest {decimal hexadecimal : Text} {x : Char}
    (hdecimal : Shortest 10 decimal n) (hhexadecimal : Shortest 16 hexadecimal n)
    (hx : x = 'x' ∨ x = 'X') :
    decode (written ('#' :: decimal)) =
        resultUpTo 99999 n (written ('#' :: decimal)) ∧
      decode (written ('#' :: x :: hexadecimal)) =
        resultUpTo 0xFFFF n (written ('#' :: x :: hexadecimal)) ∧
      ((decode (written ('#' :: decimal))).toOption =
          (decode (written ('#' :: x :: hexadecimal))).toOption ↔
        ¬ (0xFFFF < n ∧ n ≤ 99999)) := by
  have hleft := decode_decimal hdecimal
  have hright := decode_hexadecimal hx hhexadecimal
  refine ⟨hleft, hright, ?_⟩
  rw [hleft, hright]
  constructor
  · rintro heq ⟨hlow, hhigh⟩
    have hscalar : ¬ IsSurrogate n := by rw [IsSurrogate]; omega
    have hrefused : ¬ (n ≤ 0xFFFF ∧ ¬ IsSurrogate n) := fun h =>
      Nat.not_lt.2 h.1 hlow
    rw [resultUpTo, if_pos ⟨hhigh, hscalar⟩, resultUpTo, if_neg hrefused] at heq
    contradiction
  · intro hn
    by_cases hvalid : n ≤ 0xFFFF ∧ ¬ IsSurrogate n
    · have hle : n ≤ 99999 := Nat.le_trans hvalid.1 (by decide)
      rw [resultUpTo, if_pos ⟨hle, hvalid.2⟩, resultUpTo, if_pos hvalid]
    · have hrefused : ¬ (n ≤ 99999 ∧ ¬ IsSurrogate n) := by
        rintro ⟨hle, hscalar⟩
        exact hvalid ⟨Nat.not_lt.1 fun hlow => hn ⟨hlow, hle⟩, hscalar⟩
      rw [resultUpTo, if_neg hrefused, resultUpTo, if_neg hvalid]
      rfl

/-- The last number of 16 bits. -/
theorem decode_shortest_last :
    Shortest 10 "65535".toList 0xFFFF ∧ Shortest 16 "ffff".toList 0xFFFF ∧
      decode "&#65535;".toList = .ok ['\uffff'] ∧
      decode "&#xffff;".toList = .ok ['\uffff'] := by
  have hdecimal : Shortest 10 "65535".toList 0xFFFF :=
    shortest_toDigits (by decide) (by decide) 0xFFFF
  have hhexadecimal : Shortest 16 "ffff".toList 0xFFFF :=
    shortest_toDigits (by decide) (by decide) 0xFFFF
  obtain ⟨hleft, hright, -⟩ := decode_shortest hdecimal hhexadecimal (.inl rfl)
  exact ⟨hdecimal, hhexadecimal, hleft.trans (by decide), hright.trans (by decide)⟩

/-- The next number is a character in decimal, and no valid code point in hexadecimal. -/
theorem not_same_result_next :
    Shortest 10 "65536".toList 0x10000 ∧ Shortest 16 "10000".toList 0x10000 ∧
      decode "&#65536;".toList = .ok [Char.ofNat 0x10000] ∧
      decode "&#x10000;".toList = .error (.invalidCodePoint "&#x10000;".toList 0) := by
  have hdecimal : Shortest 10 "65536".toList 0x10000 :=
    shortest_toDigits (by decide) (by decide) 0x10000
  have hhexadecimal : Shortest 16 "10000".toList 0x10000 :=
    shortest_toDigits (by decide) (by decide) 0x10000
  exact ⟨hdecimal, hhexadecimal, (decode_decimal hdecimal).trans (by decide),
    (decode_hexadecimal (.inl rfl) hhexadecimal).trans (by decide)⟩

end Reference

end Markup

end SourceMarkup
