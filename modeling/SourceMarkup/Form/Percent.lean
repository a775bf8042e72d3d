import SourceMarkup.Text.Digit
import SourceMarkup.Text.Encoding

/-!
# Percent encoding

The encoding of form values: a plus sign stands for a space, a percent sign with
two hexadecimal digits for a byte, and the bytes have to be the UTF-8 encoding of
a text. Errors tell the byte offset of the percent sign.
-/

namespace SourceMarkup

namespace Form

inductive PercentError
  /-- Fewer than two bytes follow a percent sign. -/
  | incompleteEscape (offset : Nat)
  /-- The two bytes after a percent sign are not both digits. -/
  | invalidHex (digits : Text) (offset : Nat)
  /-- The bytes are not the encoding of a text. -/
  | invalidText
  deriving DecidableEq, Repr

def PercentError.message : PercentError → Text
  | incompleteEscape offset =>
      "Incomplete percent escape at offset ".toList ++ Text.ofNat offset
  | invalidHex digits offset =>
      "Invalid hex digits '".toList ++ digits ++
        "' in percent escape at offset ".toList ++ Text.ofNat offset
  | invalidText => "Decoded text is not valid UTF-8".toList

namespace Percent

def hexValue? (b : UInt8) : Option Nat :=
  Text.hexDigit? (Char.ofNat b.toNat)

/-- The byte that two hexadecimal digits write. -/
def hexPair? (high low : UInt8) : Option UInt8 :=
  match hexValue? high, hexValue? low with
  | some h, some l => some (UInt8.ofNat (16 * h + l))
  | _, _ => none

def space : UInt8 := 0x20

def plus : UInt8 := 0x2B

def percent : UInt8 := 0x25

/-- The bytes that encoded bytes stand for, where the first of them stands at
`offset`. -/
def decodeBytes (offset : Nat) : List UInt8 → Except PercentError (List UInt8)
  | [] => .ok []
  | b :: bs =>
      if b = percent then
        match bs with
        | high :: low :: rest =>
            match hexPair? high low with
            | some value => (decodeBytes (offset + 3) rest).map (value :: ·)
            | none =>
                .error (.invalidHex (Text.ofBytesLossy [high, low]) offset)
        | _ => .error (.incompleteEscape offset)
      else
        (decodeBytes (offset + 1) bs).map ((if b = plus then space else b) :: ·)

def decode (t : Text) : Except PercentError Text :=
  match decodeBytes 0 (Text.toBytes t) with
  | .error e => .error e
  | .ok bytes =>
      match Text.ofBytes? bytes with
      | some decoded => .ok decoded
      | none => .error .invalidText

end Percent

end Form

end SourceMarkup
