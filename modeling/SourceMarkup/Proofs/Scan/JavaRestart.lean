import SourceMarkup.Proofs.Lexeme.JavaRestart
import SourceMarkup.Proofs.Scan.Language

/-!
# Where the tokens of Java can start anew

A line that ends outside all tokens can be scanned apart from what follows it: a scan that
reaches the end of the line stands there as it stands at the start of a source. So what is
written behind such a line leaves its tokens as they are.
-/

namespace SourceMarkup

open Text Lexeme

/-- The byte at an offset belongs to a token. -/
def Token.Covers (token : Token) (n : Nat) : Prop :=
  token.start ≤ n ∧ n < token.stop

namespace Java

variable {line : Text}

theorem mem_tokens_of_lexemes {front : List Lexeme} {l : Lexeme}
    (h : lexemes line = front ++ [l]) (hkind : l.kind ≠ .plain) :
    ⟨l.kind, (Lexeme.source front).byteLength, line.byteLength⟩ ∈ tokens line := by
  have hline : line.byteLength = (Lexeme.source front).byteLength + l.text.byteLength := by
    rw [← byteLength_append, ← source_lexemes line, h, source_append, source_cons, source_nil,
      List.append_nil]
  rw [tokens_eq, h, tokensFrom_append, Nat.zero_add, hline]
  refine List.mem_append_right _ ?_
  rw [tokensFrom, if_neg hkind]
  exact List.mem_cons_self

/-- A line whose last byte is in no token ends with a plain lexeme. -/
theorem exists_plain_of_not_covers (hne : line ≠ [])
    (hclean : ∀ token ∈ tokens line, ¬ token.Covers (line.byteLength - 1)) :
    ∃ front text, lexemes line = front ++ [⟨.plain, text⟩] := by
  rcases List.eq_nil_or_concat (lexemes line) with hnil | ⟨front, ⟨kind, text⟩, hsplit⟩
  · rw [← source_lexemes line, hnil] at hne
    exact absurd rfl hne
  rw [List.concat_eq_append] at hsplit
  by_cases hkind : kind = .plain
  · exact ⟨front, text, hkind ▸ hsplit⟩
  have htoken := mem_tokens_of_lexemes hsplit hkind
  have hjava : _ ∈ Language.java.tokens line := htoken
  have hlt := (Language.bounds_of_mem_tokens hjava).2.1
  refine absurd ⟨?_, ?_⟩ (hclean _ htoken)
  · exact Nat.le_sub_one_of_lt hlt
  · exact Nat.sub_one_lt_of_lt hlt

/-- Behind a line that ends with a new line outside all tokens, a source has the tokens that
it would have alone, and the line has its own. -/
theorem tokens_append (hline : line.getLast? = some '\n')
    (hclean : ∀ token ∈ tokens line, ¬ token.Covers (line.byteLength - 1)) (rest : Text) :
    tokens (line ++ rest) = tokens line ++ (tokens rest).map (Token.shift line.byteLength) ∧
      (tokens (line ++ rest)).filter (fun token => token.start < line.byteLength) =
        tokens line := by
  have hne : line ≠ [] := by
    rintro rfl
    cases hline
  obtain ⟨front, text, hsplit⟩ := exists_plain_of_not_covers hne hclean
  have htokens : tokens (line ++ rest) =
      tokens line ++ (tokens rest).map (Token.shift line.byteLength) := by
    rw [tokens_eq, lexemes_append_of_plain hsplit hline rest, tokensFrom_append,
      source_lexemes, Nat.zero_add, tokens_eq, tokens_eq, ← tokensFrom_add, Nat.add_zero]
  refine ⟨htokens, ?_⟩
  have hbefore : ∀ token ∈ tokens line, token.start < line.byteLength := by
    intro token (htoken : token ∈ Language.java.tokens line)
    obtain ⟨-, hlt, hle⟩ := Language.bounds_of_mem_tokens htoken
    exact Nat.lt_of_lt_of_le hlt hle
  have hbehind : ∀ token ∈ (tokens rest).map (Token.shift line.byteLength),
      ¬ token.start < line.byteLength := by
    intro token htoken
    obtain ⟨u, -, rfl⟩ := List.mem_map.1 htoken
    exact Nat.not_lt.2 (Nat.le_add_right _ _)
  rw [htokens, List.filter_append, List.filter_eq_self.2 (by simpa using hbefore),
    List.filter_eq_nil_iff.2 (by simpa using hbehind), List.append_nil]

/-- A literal that is open at the end of its line does not reach into the next line. -/
theorem tokens_append_open :
    let line : Text := ['"', 'a', '\n']
    (line.getLast? = some '\n' ∧
      ∀ token ∈ tokens line, ¬ token.Covers (line.byteLength - 1)) ∧
      tokens (line ++ ['i', 'f']) = [⟨.stringLiteral, 0, 2⟩, ⟨.keyword, 3, 5⟩] := by
  intro line
  have hliteral : construct '"' ['a', '\n'] = (.stringLiteral, 1) := by decide
  have hword : construct 'i' ['f'] = (.keyword, 1) := by decide
  have hline : tokens line = [⟨.stringLiteral, 0, 2⟩] := by
    rw [tokens_eq, lexemes_cons_of_ne hliteral (by decide),
      show List.drop 1 ['a', '\n'] = ['\n'] from rfl, lexemes_newline, lexemes_nil]
    rfl
  have hrest : tokens ['i', 'f'] = [⟨.keyword, 0, 2⟩] := by
    rw [tokens_eq, lexemes_cons_of_ne hword (by decide),
      show List.drop 1 ['f'] = [] from rfl, lexemes_nil]
    rfl
  have hclean : ∀ token ∈ tokens line, ¬ token.Covers (line.byteLength - 1) := by
    rw [hline, List.forall_mem_singleton]
    exact fun hcovers => absurd hcovers.2 (by decide)
  refine ⟨⟨rfl, hclean⟩, ?_⟩
  rw [(tokens_append rfl hclean ['i', 'f']).1, hline, hrest]
  rfl

end Java

end SourceMarkup
