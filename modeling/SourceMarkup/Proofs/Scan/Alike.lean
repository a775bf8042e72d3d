import Mathlib.Data.List.Forall2
import SourceMarkup.Proofs.Scan.JavaBlur
import SourceMarkup.Proofs.Scan.Language
import SourceMarkup.Proofs.Scan.XmlBlur

/-!
# Sources that differ beyond ASCII only

Two sources whose bytes are the same, but for bytes beyond ASCII that stand for others, are
the same when they are blurred. They have the same tokens and the same covers, even where
the characters that those bytes belong to have other lengths.
-/

namespace SourceMarkup

open Text

/-- The same byte, or two bytes beyond ASCII. -/
def Text.Alike (b d : UInt8) : Prop :=
  b = d ∨ 0x80 ≤ b ∧ 0x80 ≤ d

instance : DecidableRel Text.Alike :=
  fun b d => inferInstanceAs (Decidable (b = d ∨ 0x80 ≤ b ∧ 0x80 ≤ d))

theorem Text.Alike.blurByte_eq {b d : UInt8} (h : Alike b d) : blurByte b = blurByte d := by
  rcases h with rfl | ⟨hb, hd⟩
  · rfl
  · have hb : 128 ≤ b.toNat := UInt8.le_iff_toNat_le.1 hb
    have hd : 128 ≤ d.toNat := UInt8.le_iff_toNat_le.1 hd
    rw [blurByte, if_neg (Nat.not_lt.2 hb), blurByte, if_neg (Nat.not_lt.2 hd)]

theorem Text.map_blurByte_eq {bytes others : List UInt8} (h : List.Forall₂ Alike bytes others) :
    bytes.map blurByte = others.map blurByte := by
  induction h with
  | nil => rfl
  | cons hb _ ih => rw [List.map_cons, List.map_cons, hb.blurByte_eq, ih]

theorem Scan.blur_start_eq {source other : Text}
    (h : List.Forall₂ Alike source.toBytes other.toBytes) :
    (start source).blur = (start other).blur := by
  simp only [start, blur, List.map_toArray, map_blurByte_eq h]

namespace Language

/-- A lexer tells ASCII bytes apart and no others: sources that are alike byte by byte have
the same tokens and the same cover. -/
theorem cover_alike (language : Language) {source other : Text}
    (h : List.Forall₂ Alike source.toBytes other.toBytes) :
    language.tokens source = language.tokens other ∧
      language.cover source = language.cover other := by
  have htokens : language.tokens source = language.tokens other := by
    cases language with
    | java => exact Java.tokens_eq_of_blur (Scan.blur_start_eq h)
    | xml => exact Xml.tokens_eq_of_blur (Scan.blur_start_eq h)
  have hlength : source.byteLength = other.byteLength := by
    rw [← length_toBytes, ← length_toBytes, h.length_eq]
  exact ⟨htokens, by rw [cover, cover, htokens, hlength]⟩

/-- One character of four bytes has the cover of two characters of two bytes, also where a
backslash skips the first of these bytes. -/
theorem cover_alike_escaped :
    List.Forall₂ Alike (toBytes ['"', '\\', 'é', 'é', '"']) (toBytes ['"', '\\', '😀', '"']) ∧
      Language.java.cover ['"', '\\', 'é', 'é', '"'] =
        Language.java.cover ['"', '\\', '😀', '"'] := by
  have halike : List.Forall₂ Alike (toBytes ['"', '\\', 'é', 'é', '"'])
      (toBytes ['"', '\\', '😀', '"']) := by decide
  exact ⟨halike, (cover_alike .java halike).2⟩

end Language

end SourceMarkup
