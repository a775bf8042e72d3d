import Mathlib.Data.List.Basic
import SourceMarkup.Form.Percent
import SourceMarkup.Proofs.Text.Bytes
import SourceMarkup.Proofs.Text.Pieces

/-!
# What a percent encoding spells

An encoding is a row of pieces, one for each byte that it spells: an escape, a plus sign
for a space, or a byte that stands for itself. `MalformedAt` says where a percent sign is
not followed by two digits, wherever it is. Decoding reads these pieces, and the main
statement is that it gives the text whose bytes are spelled, and otherwise fails at the
first malformed escape, or because the bytes are no text if there is none.
-/

namespace SourceMarkup

namespace Form

namespace Percent

open Pieces

/-! ### Digits -/

/-- A byte is the hexadecimal digit of a value, in either case. -/
def IsHexDigit (b : UInt8) (n : Nat) : Prop :=
  "0123456789abcdef".toList[n]? = some (Char.ofNat b.toNat) ∨
    "0123456789ABCDEF".toList[n]? = some (Char.ofNat b.toNat)

instance (b : UInt8) (n : Nat) : Decidable (IsHexDigit b n) :=
  inferInstanceAs (Decidable (_ ∨ _))

theorem IsHexDigit.lt {b : UInt8} {n : Nat} (h : IsHexDigit b n) : n < 16 := by
  rcases h with h | h
  · exact (List.getElem?_eq_some_iff.1 h).1
  · exact (List.getElem?_eq_some_iff.1 h).1

theorem isHexDigit_of_hexValue? {b : UInt8} {n : Nat} (h : hexValue? b = some n) :
    IsHexDigit b n := by
  have hall : ∀ k : Fin 256, (hexValue? (UInt8.ofFin k)).all
      fun m => decide (IsHexDigit (UInt8.ofFin k) m) := by
    decide +kernel
  have hb := hall b.toFin
  rw [UInt8.ofFin_toFin, h] at hb
  exact of_decide_eq_true hb

theorem hexValue?_eq_some_iff {b : UInt8} {n : Nat} :
    hexValue? b = some n ↔ IsHexDigit b n := by
  constructor
  · exact isHexDigit_of_hexValue?
  · intro h
    have hlower : ∀ m < 16, "0123456789abcdef".toList[m]?.bind Text.hexDigit? = some m := by
      decide
    have hupper : ∀ m < 16, "0123456789ABCDEF".toList[m]?.bind Text.hexDigit? = some m := by
      decide
    rcases h with hdigit | hdigit
    · have hm := hlower n (IsHexDigit.lt (.inl hdigit))
      rwa [hdigit] at hm
    · have hm := hupper n (IsHexDigit.lt (.inr hdigit))
      rwa [hdigit] at hm

/-- Two digits follow at the start of bytes. -/
def Escapes (rest : List UInt8) : Prop :=
  ∃ high low tail h l, rest = high :: low :: tail ∧ IsHexDigit high h ∧ IsHexDigit low l

theorem hexPair?_of_digits {high low : UInt8} {h l : Nat} (hhigh : IsHexDigit high h)
    (hlow : IsHexDigit low l) : hexPair? high low = some (UInt8.ofNat (16 * h + l)) := by
  rw [hexPair?, hexValue?_eq_some_iff.2 hhigh, hexValue?_eq_some_iff.2 hlow]

theorem hexPair?_of_not_escapes {high low : UInt8} {tail : List UInt8}
    (h : ¬ Escapes (high :: low :: tail)) : hexPair? high low = none := by
  rw [hexPair?]
  split
  · next hhigh hlow =>
      exact absurd ⟨high, low, tail, _, _, rfl, isHexDigit_of_hexValue? hhigh,
        isHexDigit_of_hexValue? hlow⟩ h
  · rfl

/-! ### Pieces -/

inductive Piece : List UInt8 → UInt8 → Prop
  | escape {high low value : UInt8} {h l : Nat} (hhigh : IsHexDigit high h)
      (hlow : IsHexDigit low l) (hvalue : value.toNat = 16 * h + l) :
      Piece [percent, high, low] value
  | space : Piece [plus] space
  | other {b : UInt8} (hplus : b ≠ plus) (hpercent : b ≠ percent) : Piece [b] b

/-- An encoding is a row of pieces that spell the given bytes, one for each of them. -/
abbrev Spells (encoding bytes : List UInt8) : Prop :=
  Row (fun _ => Piece) encoding bytes

/-- Without a percent or a plus sign in them, bytes spell themselves. -/
theorem spells_self {bytes : List UInt8} (h : ∀ b ∈ bytes, b ≠ plus ∧ b ≠ percent) :
    Spells bytes bytes := by
  induction bytes with
  | nil => exact .nil
  | cons b bs ih =>
      obtain ⟨⟨hplus, hpercent⟩, hbs⟩ := List.forall_mem_cons.1 h
      exact .cons (.other hplus hpercent) (ih hbs)

/-- Two digits follow a piece that is a percent sign. -/
theorem Piece.clean {piece tail : List UInt8} {value : UInt8} (h : Piece piece value) :
    Clean percent (¬ Escapes ·) tail piece := by
  have hdigit : ∀ {n}, ¬ IsHexDigit percent n := by
    intro n hn
    have hlt := hn.lt
    have hnone : ∀ m < 16, ¬ IsHexDigit percent m := by decide
    exact hnone n hlt hn
  cases h with
  | @escape high low value h l hhigh hlow hvalue =>
      refine ⟨percent, [high, low], rfl, ?_, fun _ => not_not_intro ?_⟩
      · intro hmem
        rcases List.mem_pair.1 hmem with rfl | rfl
        · exact hdigit hhigh
        · exact hdigit hlow
      · exact ⟨high, low, tail, h, l, rfl, hhigh, hlow⟩
  | space => exact ⟨plus, [], rfl, List.not_mem_nil, fun h => absurd h (by decide)⟩
  | other hplus hpercent =>
      exact ⟨_, [], rfl, List.not_mem_nil, fun h => absurd h hpercent⟩

/-- Bytes start with a piece, or with a percent sign that two digits do not follow. -/
theorem exists_piece (b : UInt8) (bs : List UInt8) :
    (∃ piece tail value, b :: bs = piece ++ tail ∧ Piece piece value) ∨
      (b = percent ∧ ¬ Escapes bs) := by
  by_cases hpercent : b = percent
  · subst hpercent
    by_cases h : Escapes bs
    · obtain ⟨high, low, tail, h, l, rfl, hhigh, hlow⟩ := h
      have hvalue : (UInt8.ofNat (16 * h + l)).toNat = 16 * h + l := by
        have hlt := hhigh.lt
        have hlt' := hlow.lt
        rw [UInt8.toNat_ofNat']
        omega
      exact .inl ⟨[percent, high, low], tail, _, rfl, .escape hhigh hlow hvalue⟩
    · exact .inr ⟨rfl, h⟩
  · by_cases hplus : b = plus
    · subst hplus
      exact .inl ⟨[plus], bs, space, rfl, .space⟩
    · exact .inl ⟨[b], bs, b, rfl, .other hplus hpercent⟩

/-! ### Malformed escapes -/

/-- The percent sign after `before` is not followed by two digits. -/
abbrev MalformedAt (encoding before : List UInt8) : Prop :=
  BadAt percent (¬ Escapes ·) encoding before

abbrev FirstMalformedAt (encoding before : List UInt8) : Prop :=
  FirstBadAt percent (¬ Escapes ·) encoding before

def malformed (offset : Nat) : List UInt8 → PercentError
  | high :: low :: _ => .invalidHex (Text.ofBytesLossy [high, low]) offset
  | _ => .incompleteEscape offset

/-! ### Decoding piece by piece -/

theorem decodeBytes_percent {rest : List UInt8} (h : ¬ Escapes rest) (offset : Nat) :
    decodeBytes offset (percent :: rest) = .error (malformed offset rest) := by
  rw [decodeBytes.eq_def]
  match rest with
  | [] => rfl
  | [_] => rfl
  | high :: low :: tail => simp only [if_true, hexPair?_of_not_escapes h, malformed]

theorem decodeBytes_append {piece : List UInt8} {value : UInt8} (h : Piece piece value)
    (offset : Nat) (tail : List UInt8) :
    decodeBytes offset (piece ++ tail) =
      (decodeBytes (offset + piece.length) tail).map (value :: ·) := by
  cases h with
  | @escape high low value h l hhigh hlow hvalue =>
      have hpair : hexPair? high low = some value := by
        rw [hexPair?_of_digits hhigh hlow, ← hvalue, UInt8.ofNat_toNat]
      rw [List.cons_append, decodeBytes.eq_def]
      simp only [List.cons_append, List.nil_append, if_true, hpair, List.length_cons,
        List.length_nil]
  | space =>
      rw [List.cons_append, decodeBytes.eq_def]
      simp only [show plus ≠ percent by decide, if_false, if_true, List.nil_append,
        List.length_cons, List.length_nil]
  | other hplus hpercent =>
      rw [List.cons_append, decodeBytes.eq_def]
      simp only [hpercent, hplus, if_false, List.nil_append, List.length_cons, List.length_nil]

theorem reads_decodeBytes :
    Reads percent (¬ Escapes ·) (fun _ => Piece) List.length decodeBytes where
  size_append _ _ := List.length_append
  clean := Piece.clean
  cut := exists_piece
  nil _ := rfl
  append hpiece offset := decodeBytes_append hpiece offset _
  bad h offset := ⟨_, decodeBytes_percent h offset⟩

/-! ### Texts -/

/-- What is wrong with an encoding: its first malformed escape if it has one, with the
offset of the percent sign and the two bytes after that if there are two, and otherwise
that the bytes it spells are those of no text. -/
inductive Fault (encoding : List UInt8) : PercentError → Prop
  | incompleteEscape {before rest : List UInt8} (hfirst : FirstMalformedAt encoding before)
      (hrest : encoding = before ++ percent :: rest) (hshort : rest.length < 2) :
      Fault encoding (.incompleteEscape before.length)
  | invalidHex {before tail : List UInt8} {high low : UInt8}
      (hfirst : FirstMalformedAt encoding before)
      (hrest : encoding = before ++ percent :: high :: low :: tail) :
      Fault encoding (.invalidHex (Text.ofBytesLossy [high, low]) before.length)
  | invalidText (hescapes : ∀ before, ¬ MalformedAt encoding before)
      (htext : ∀ t, ¬ Spells encoding (Text.toBytes t)) :
      Fault encoding .invalidText

theorem fault_malformed {encoding before rest : List UInt8}
    (hfirst : FirstMalformedAt encoding before) (hrest : encoding = before ++ percent :: rest) :
    Fault encoding (malformed before.length rest) := by
  match rest, hrest with
  | [], hrest => exact .incompleteEscape hfirst hrest (by decide)
  | [_], hrest => exact .incompleteEscape hfirst hrest (Nat.lt_succ_self 1)
  | _ :: _ :: _, hrest => exact .invalidHex hfirst hrest

theorem Fault.eq_malformed {encoding before rest : List UInt8} {error : PercentError}
    (h : Fault encoding error) (hfirst : FirstMalformedAt encoding before)
    (hrest : encoding = before ++ percent :: rest) : error = malformed before.length rest := by
  cases h with
  | incompleteEscape hfirst' hrest' hshort =>
      obtain ⟨rfl, rfl⟩ := hfirst.unique hfirst' hrest hrest'
      match rest, hshort with
      | [], _ => rfl
      | [_], _ => rfl
  | invalidHex hfirst' hrest' =>
      obtain ⟨rfl, rfl⟩ := hfirst.unique hfirst' hrest hrest'
      rfl
  | invalidText hescapes _ => exact absurd hfirst.1 (hescapes before)

theorem decode_eq_of_spells {t : Text} {bytes : List UInt8}
    (h : Spells (Text.toBytes t) bytes) :
    decode t = match Text.ofBytes? bytes with
      | some decoded => .ok decoded
      | none => .error .invalidText := by
  have hbytes := reads_decodeBytes.of_row h 0
  unfold decode
  split
  · next herror =>
      rw [hbytes] at herror
      contradiction
  · next hok =>
      obtain rfl := Except.ok.inj (hbytes.symm.trans hok)
      exact rfl

/-- An encoding spells the bytes of one text at most. -/
theorem spells_unique {encoding bytes bytes' : List UInt8} (h : Spells encoding bytes)
    (h' : Spells encoding bytes') : bytes = bytes' :=
  Except.ok.inj ((reads_decodeBytes.of_row h 0).symm.trans (reads_decodeBytes.of_row h' 0))

theorem decode_eq_ok_iff (t decoded : Text) :
    decode t = .ok decoded ↔ Spells (Text.toBytes t) (Text.toBytes decoded) := by
  constructor
  · intro hdecode
    rcases reads_decodeBytes.outcome 0 (Text.toBytes t) with
      ⟨bytes, hbytes, -⟩ | ⟨before, rest, -, -, hbad, hread⟩
    · rw [decode_eq_of_spells hbytes] at hdecode
      split at hdecode
      · next htext =>
          obtain rfl := Except.ok.inj hdecode
          rwa [← (Text.ofBytes?_eq_some_iff _ _).1 htext]
      · contradiction
    · rw [decode, hread, decodeBytes_percent hbad] at hdecode
      contradiction
  · intro hspells
    rw [decode_eq_of_spells hspells, Text.ofBytes?_toBytes]

/-- Without a percent or a plus sign in it, an encoding is what it stands for. -/
theorem decode_of_plain {t : Text} (hpercent : '%' ∉ t) (hplus : '+' ∉ t) :
    decode t = .ok t := by
  have hmem : ∀ b ∈ Text.toBytes t, Text.charOfByte b ∈ Text.byteChars t :=
    fun b hb => List.mem_map_of_mem hb
  refine (decode_eq_ok_iff t t).2 (spells_self fun b hb => ⟨?_, ?_⟩)
  · rintro rfl
    exact hplus (Text.mem_of_mem_byteChars (by decide) (hmem plus hb))
  · rintro rfl
    exact hpercent (Text.mem_of_mem_byteChars (by decide) (hmem percent hb))

theorem decode_eq_error_iff (t : Text) (error : PercentError) :
    decode t = .error error ↔ Fault (Text.toBytes t) error := by
  rcases reads_decodeBytes.outcome 0 (Text.toBytes t) with
    ⟨bytes, hbytes, hnone⟩ | ⟨before, rest, hfirst, hrest, hbad, hread⟩
  · have hfault : Fault (Text.toBytes t) error ↔
        error = .invalidText ∧ ∀ decoded, ¬ Spells (Text.toBytes t) (Text.toBytes decoded) := by
      constructor
      · intro h
        cases h with
        | incompleteEscape hfirst => exact absurd hfirst.1 (hnone _)
        | invalidHex hfirst => exact absurd hfirst.1 (hnone _)
        | invalidText _ htext => exact ⟨rfl, htext⟩
      · rintro ⟨rfl, htext⟩
        exact .invalidText hnone htext
    rw [hfault, decode_eq_of_spells hbytes]
    cases htext : Text.ofBytes? bytes with
    | some decoded =>
        have hdecoded : Spells (Text.toBytes t) (Text.toBytes decoded) := by
          rwa [← (Text.ofBytes?_eq_some_iff _ _).1 htext]
        constructor
        · intro h
          contradiction
        · rintro ⟨-, hno⟩
          exact absurd hdecoded (hno decoded)
    | none =>
        have hno : ∀ decoded, ¬ Spells (Text.toBytes t) (Text.toBytes decoded) := by
          intro decoded hdecoded
          rw [spells_unique hbytes hdecoded, Text.ofBytes?_toBytes] at htext
          contradiction
        rw [Except.error.injEq]
        exact ⟨fun h => ⟨h.symm, hno⟩, fun h => h.1.symm⟩
  · have hdecode : decode t = .error (malformed before.length rest) := by
      rw [decode, hread, Nat.zero_add, decodeBytes_percent hbad]
    rw [hdecode, Except.error.injEq]
    constructor
    · rintro rfl
      exact fault_malformed hfirst hrest
    · intro hfault
      exact (hfault.eq_malformed hfirst hrest).symm

/-- Decoding gives a text if and only if the encoding spells its bytes, and fails with an
error if and only if that is what is wrong with the encoding. -/
theorem decode_spelled_iff (t : Text) :
    (∀ decoded, decode t = .ok decoded ↔ Spells (Text.toBytes t) (Text.toBytes decoded)) ∧
      ∀ error, decode t = .error error ↔ Fault (Text.toBytes t) error :=
  ⟨decode_eq_ok_iff t, decode_eq_error_iff t⟩

/-- The bytes spelled before the last percent sign are those of no text, which does not
count as long as there is a malformed escape. -/
example : decode "%fF+%".toList = .error (.incompleteEscape 4) := by decide

end Percent

end Form

end SourceMarkup
