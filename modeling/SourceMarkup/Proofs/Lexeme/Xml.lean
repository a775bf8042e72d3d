import SourceMarkup.Lexeme.Xml
import SourceMarkup.Proofs.Lexeme.Basic

/-!
# Lexemes of XML make up the source

This holds in both modes, as every step reads at least one character.
-/

namespace SourceMarkup

namespace Xml

open Lexeme

theorem isNamePart_of_isNameStart {c : Char} (h : isNameStart c) : isNamePart c = true := by
  simp only [isNameStart, Bool.or_eq_true] at h
  rcases h with ((hletter | hunderscore) | hcolon) | hbeyond
  · simp [isNamePart, Text.isAsciiAlnum, hletter]
  · simp [isNamePart, hunderscore]
  · simp [isNamePart, hcolon]
  · simp [isNamePart, hbeyond]

/-- A quoted value reaches through the quote that ends it. -/
theorem take_quotedLength (quote : Char) (t : Text) :
    t.take (throughLength [quote] t) =
      t.takeWhile (· != quote) ++ (t.dropWhile (· != quote)).take 1 := by
  induction t with
  | nil => rfl
  | cons c cs ih =>
      by_cases hc : c = quote
      · subst hc
        simp [throughLength]
      · simp [throughLength, Ne.symm hc, hc, ih]

def firstLexeme (mode : Mode) (c : Char) (cs : Text) : Lexeme :=
  ⟨(step mode c cs).1, c :: cs.take (step mode c cs).2.1⟩

theorem lexemesFrom_nil (mode : Mode) : lexemesFrom mode [] = [] := by
  rw [lexemesFrom]

theorem lexemesFrom_cons (mode : Mode) (c : Char) (cs : Text) :
    lexemesFrom mode (c :: cs) =
      firstLexeme mode c cs ::
        lexemesFrom (step mode c cs).2.2 (cs.drop (step mode c cs).2.1) := by
  rw [lexemesFrom]
  rfl

theorem source_lexemesFrom (mode : Mode) (t : Text) :
    source (lexemesFrom mode t) = t := by
  fun_induction lexemesFrom mode t with
  | case1 => rfl
  | case2 mode c cs kind n next hstep ih => simp [ih]

theorem solid_lexemesFrom (mode : Mode) (t : Text) : Solid (lexemesFrom mode t) := by
  fun_induction lexemesFrom mode t with
  | case1 => exact fun _ h => absurd h List.not_mem_nil
  | case2 mode c cs kind n next hstep ih =>
      intro l hl
      rcases List.mem_cons.1 hl with rfl | hl
      · exact List.cons_ne_nil _ _
      · exact ih l hl

end Xml

end SourceMarkup
