import SourceMarkup.Proofs.Lexeme.JavaLines
import SourceMarkup.Proofs.Scan.JavaMeaning

/-!
# Tokens of literals and the ends of lines

A token of a literal in quotes holds no new line, but for escaped ones: a backslash at the
end of a line passes the new line too, and the literal goes on. A literal that is not
closed ends at the first new line that is not escaped, and the tokens of the next line are
those that it has by itself.
-/

namespace SourceMarkup

open Text Lexeme

namespace Java

variable {source text : Text} {token : Token}

/-- A token of a literal that is no text block. -/
def IsLiteral (kind : TokenKind) (text : Text) : Prop :=
  kind = .charLiteral ∨ kind = .stringLiteral ∧ ¬ blockQuotes <+: text

theorem IsLiteral.kind_ne {kind other : TokenKind} (h : IsLiteral kind text)
    (hchar : other ≠ .charLiteral) (hstring : other ≠ .stringLiteral) : kind ≠ other := by
  rcases h with rfl | ⟨rfl, -⟩
  · exact hchar.symm
  · exact hstring.symm

theorem IsLiteral.exists_quoted {kind : TokenKind} {before after : Text}
    (h : IsLiteral kind text) (hmeans : Means kind before text after) :
    ∃ quote, isBeyondAscii quote = false ∧ quote ≠ '\n' ∧ quote ≠ '\\' ∧
      Quoted quote text after := by
  rcases h with rfl | ⟨rfl, hblock⟩
  · exact ⟨'\'', by decide, by decide, by decide, hmeans⟩
  · exact ⟨'"', by decide, by decide, by decide, hmeans.2 hblock⟩

/-- A token of a source, with the lexemes around it. -/
theorem exists_lexemes_of_mem_tokens (htoken : token ∈ tokens source)
    (htext : token.text? source = some text) :
    ∃ front back, lexemes source = front ++ ⟨token.kind, text⟩ :: back ∧
      token.start = (Lexeme.source front).byteLength ∧
      token.stop = token.start + text.byteLength := by
  obtain ⟨front, l, back, hsplit, rfl⟩ :=
    exists_split_of_mem_spansFrom (mem_spansFrom_of_mem_tokens htoken)
  have hsource : source = Lexeme.source front ++ (l.text ++ Lexeme.source back) := by
    rw [← source_lexemes source, hsplit, source_append, source_cons]
  rw [Token.text?, Nat.zero_add, hsource, slice?_append, Option.some.injEq] at htext
  subst htext
  exact ⟨front, back, hsplit, Nat.zero_add _, rfl⟩

theorem tokens_newline (next : Text) :
    tokens ('\n' :: next) = (tokens next).map (Token.shift 1) := by
  rw [tokens_eq, tokens_eq, lexemes_newline, tokensFrom, ← tokensFrom_add]
  rfl

/-- A new line in a literal is escaped. A literal that is not closed ends with its line,
and behind a literal the source has the tokens that it would have alone. -/
theorem literal_within_line (htoken : token ∈ tokens source)
    (htext : token.text? source = some text) (hliteral : IsLiteral token.kind text) :
    (∀ front back, byteChars text = front ++ '\n' :: back → EndsInEscape front) ∧
      ∃ before after found, source = before ++ (text ++ after) ∧
        before.byteLength = token.start ∧
        tokens source = found ++ token :: (tokens after).map (Token.shift token.stop) ∧
        (Closed text ∨ after = [] ∨
          ∃ next, after = '\n' :: next ∧ tokens after = (tokens next).map (Token.shift 1)) := by
  obtain ⟨front, back, hsplit, hstart, hstop⟩ := exists_lexemes_of_mem_tokens htoken htext
  have hborders : Borders [] source := fun h => by contradiction
  obtain ⟨quote, hascii, hline, hslash, hquoted⟩ :=
    hliteral.exists_quoted (lexemes_mean hborders hsplit)
  have hback : back = lexemes (Lexeme.source back) :=
    lexemes_after (hliteral.kind_ne (by decide) (by decide))
      (hliteral.kind_ne (by decide) (by decide)) hsplit
  refine ⟨fun u v huv => (hquoted.bytes hascii).endsInEscape hline hslash huv,
    Lexeme.source front, Lexeme.source back, tokensFrom 0 front, ?_, hstart.symm, ?_, ?_⟩
  · rw [← source_lexemes source, hsplit, source_append, source_cons]
  · have hplain : token.kind ≠ .plain := hliteral.kind_ne (by decide) (by decide)
    rw [tokens_eq, hsplit, tokensFrom_append, Nat.zero_add, ← hstart, tokensFrom,
      if_neg hplain, ← hstop, tokens_eq, ← tokensFrom_add, Nat.add_zero, ← hback]
  · rcases hquoted.closed_or_endOfLine with hclosed | hnil | ⟨next, hnext⟩
    · exact .inl hclosed
    · exact .inr (.inl hnil)
    · refine .inr (.inr ⟨next, hnext.symm, ?_⟩)
      rw [← hnext]
      exact tokens_newline next

/-- The first new line is escaped and belongs to the literal; the second one ends it. -/
theorem literal_within_line_open :
    (⟨.stringLiteral, 0, 4⟩ ∈ tokens ['"', '\\', '\n', 'a', '\n', 'i', 'f'] ∧
      IsLiteral .stringLiteral ['"', '\\', '\n', 'a']) ∧
      EndsInEscape ['"', '\\'] ∧
      ∃ found, tokens ['"', '\\', '\n', 'a', '\n', 'i', 'f'] =
        found ++ ⟨.stringLiteral, 0, 4⟩ ::
          (tokens ['\n', 'i', 'f']).map (Token.shift 4) := by
  have hconstruct : construct '"' ['\\', '\n', 'a', '\n', 'i', 'f'] = (.stringLiteral, 3) := by
    decide
  have htoken : ⟨.stringLiteral, 0, 4⟩ ∈ tokens ['"', '\\', '\n', 'a', '\n', 'i', 'f'] := by
    rw [tokens_eq, lexemes_cons_of_ne hconstruct (by decide)]
    exact List.mem_cons_self
  have htext : Token.text? ⟨.stringLiteral, 0, 4⟩ ['"', '\\', '\n', 'a', '\n', 'i', 'f'] =
      some ['"', '\\', '\n', 'a'] := by decide
  have hliteral : IsLiteral .stringLiteral ['"', '\\', '\n', 'a'] := .inr ⟨rfl, by decide⟩
  obtain ⟨hlines, before, after, found, hsource, hbefore, htokens, -⟩ :=
    literal_within_line htoken htext hliteral
  obtain rfl : before = [] := byteLength_eq_zero_iff.1 hbefore
  have hsplit : ['"', '\\', '\n', 'a'] ++ ['\n', 'i', 'f'] =
      ['"', '\\', '\n', 'a'] ++ after := hsource
  have hafter : after = ['\n', 'i', 'f'] := (List.append_cancel_left hsplit).symm
  refine ⟨⟨htoken, hliteral⟩, hlines ['"', '\\'] ['a'] ?_, found, ?_⟩
  · exact byteChars_of_isAscii (by decide)
  · rw [htokens, hafter]

/-- A backslash at the end of a line takes the new line into the literal, and the next
line with it. -/
theorem not_within_line_escaped :
    tokens ['"', '\\', '\n', 'i', 'f'] = [⟨.stringLiteral, 0, 5⟩] ∧
      Token.text? ⟨.stringLiteral, 0, 5⟩ ['"', '\\', '\n', 'i', 'f'] =
        some ['"', '\\', '\n', 'i', 'f'] ∧
      IsLiteral .stringLiteral ['"', '\\', '\n', 'i', 'f'] ∧
      '\n' ∈ byteChars ['"', '\\', '\n', 'i', 'f'] := by
  have hconstruct : construct '"' ['\\', '\n', 'i', 'f'] = (.stringLiteral, 4) := by decide
  refine ⟨?_, by decide, .inr ⟨rfl, by decide⟩, ?_⟩
  · rw [tokens_eq, lexemes_cons_of_ne hconstruct (by decide),
      show List.drop 4 ['\\', '\n', 'i', 'f'] = [] from rfl, lexemes_nil]
    rfl
  · rw [byteChars_of_isAscii (by decide)]
    decide

end Java

end SourceMarkup
