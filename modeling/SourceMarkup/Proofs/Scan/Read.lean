import SourceMarkup.Proofs.Lexeme.Basic
import SourceMarkup.Proofs.Scan.Eat

/-!
# Reading lexemes

`read` is what a scan does as a whole when it goes over lexemes: it moves behind
them and keeps their tokens. Skipping a text reads a plain lexeme, and skipping it
and keeping a token reads a lexeme of another kind. A scan of a language reads the
lexemes of that language, which its proofs show construct by construct.
-/

namespace SourceMarkup

open Text Lexeme

namespace Scan

/-- The scan behind lexemes that it has read, with their tokens. -/
def read (lexemes : List Lexeme) (s : Scan) : Scan :=
  { s with
    pos := s.pos + (source lexemes).byteLength
    tokens := s.tokens ++ (tokensFrom s.pos lexemes).toArray }

@[simp] theorem read_nil (s : Scan) : s.read [] = s := by
  simp [read, tokensFrom]

theorem read_append (s : Scan) (ls ms : List Lexeme) :
    s.read (ls ++ ms) = (s.read ls).read ms := by
  simp [read, tokensFrom_append, Nat.add_assoc]

theorem read_pos (s : Scan) (ls : List Lexeme) :
    (s.read ls).pos = s.pos + (source ls).byteLength := rfl

theorem skip_eq_read (s : Scan) (t : Text) : s.skip t = s.read [⟨.plain, t⟩] := by
  simp [skip, read, tokensFrom]

theorem emit_skip {kind : TokenKind} (hkind : kind ≠ .plain) {t : Text}
    (ht : t ≠ []) (s : Scan) : (s.skip t).emit kind s.pos = s.read [⟨kind, t⟩] := by
  have hpos := byteLength_pos ht
  rw [emit, emitRange, if_pos (by rw [skip_pos]; omega)]
  simp [skip, read, tokensFrom, hkind]

theorem Stands.bump_one {s : Scan} {before cs : Text} {c : Char}
    (h : Stands s before (c :: cs)) (hc : isBeyondAscii c = false) :
    s.bump 1 = s.read [⟨.plain, [c]⟩] := by
  have hbump : s.bump 1 = s.skip [c] :=
    Stands.bump_eq (t := [c]) h (by simp [utf8Size_of_ascii hc])
  rw [hbump, skip_eq_read]

theorem Stands.read {s : Scan} {before after : Text} {ls : List Lexeme}
    (h : Stands s before (source ls ++ after)) :
    Stands (s.read ls) (before ++ source ls) after where
  bytes_eq := by rw [List.append_assoc]; exact h.bytes_eq
  pos_eq := by rw [read_pos, h.pos_eq, byteLength_append]

/-- Reading lexemes that are not empty leaves less of the source. -/
theorem Stands.left_read {s : Scan} {before rest : Text} {ls : List Lexeme}
    (h : Stands s before (source ls ++ rest)) (hne : source ls ≠ []) :
    (s.read ls).left < s.left := by
  have hpos := byteLength_pos hne
  rw [h.read.left_eq, h.left_eq, byteLength_append]
  exact Nat.lt_add_of_pos_left hpos

end Scan

/-- The bytes of a lexeme lie in the bytes of a source where its token does. -/
theorem Lexeme.exists_bytes_of_mem_spansFrom {ls : List Lexeme} {token : Token}
    (h : token ∈ spansFrom 0 ls) :
    ∃ front l back, ls = front ++ l :: back ∧ token.kind = l.kind ∧
      byteChars (source ls) =
        byteChars (source front) ++ (byteChars l.text ++ byteChars (source back)) ∧
      (byteChars (source front)).length = token.start ∧
      (byteChars (source front) ++ byteChars l.text).length = token.stop := by
  obtain ⟨front, l, back, rfl, rfl⟩ := exists_split_of_mem_spansFrom h
  refine ⟨front, l, back, rfl, rfl, ?_, ?_, ?_⟩
  · rw [source_append, source_cons, byteChars_append, byteChars_append]
  · rw [length_byteChars, Nat.zero_add]
  · rw [← byteChars_append, length_byteChars, byteLength_append, Nat.zero_add]

end SourceMarkup
