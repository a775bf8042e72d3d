import SourceMarkup.Proofs.Lexeme.Merge
import SourceMarkup.Proofs.Scan.JavaTokens
import SourceMarkup.Proofs.Scan.Xml
import SourceMarkup.Scan.Language

/-!
# Tokens and covers of both languages

The tokens that a scan finds are those of the lexemes of its language. Lexemes are
texts of characters, so tokens never split one.
-/

namespace SourceMarkup

open Lexeme

namespace Language

theorem source_lexemes (language : Language) (source : Text) :
    Lexeme.source (language.lexemes source) = source := by
  cases language with
  | java => exact Java.source_lexemes source
  | xml => exact Xml.source_lexemesFrom .content source

theorem solid_lexemes (language : Language) (source : Text) :
    Solid (language.lexemes source) := by
  cases language with
  | java => exact Java.solid_lexemes source
  | xml => exact Xml.solid_lexemesFrom .content source

theorem tokens_eq (language : Language) (source : Text) :
    language.tokens source = tokensFrom 0 (language.lexemes source) := by
  cases language with
  | java => exact Java.tokens_eq source
  | xml => exact Xml.tokens_eq source

theorem cover_eq (language : Language) (source : Text) :
    language.cover source = spansFrom 0 (merge (language.lexemes source)) := by
  rw [cover, tokens_eq]
  have hcover := cover_tokensFrom (language.solid_lexemes source)
  rwa [source_lexemes] at hcover

theorem pairwise_tokens (language : Language) (source : Text) :
    (language.tokens source).Pairwise fun t u => t.stop ≤ u.start := by
  rw [tokens_eq, tokensFrom_eq_filter]
  exact (tiles_spansFrom (language.solid_lexemes source) 0).pairwise.filter _

theorem bounds_of_mem_tokens {language : Language} {source : Text} {token : Token}
    (h : token ∈ language.tokens source) :
    token.kind ≠ .plain ∧ token.start < token.stop ∧ token.stop ≤ source.byteLength := by
  have htiles := tiles_spansFrom (language.solid_lexemes source) 0
  rw [language.source_lexemes source, Nat.zero_add] at htiles
  rw [tokens_eq, tokensFrom_eq_filter] at h
  obtain ⟨hspan, hkind⟩ := List.mem_filter.1 h
  exact ⟨by simpa using hkind, (htiles.bounds hspan).2⟩

/-- What a lexer promises of its tokens, for every source: they follow each other
without overlapping, and each is a part of the source that can be cut out. -/
theorem tokens_ordered (language : Language) (source : Text) :
    (language.tokens source).Pairwise
        (fun t u => t.start < u.start ∧ t.stop ≤ u.start) ∧
      ∀ token ∈ language.tokens source,
        token.kind ≠ .plain ∧ token.start < token.stop ∧
          token.stop ≤ source.byteLength ∧
          source.IsBoundary token.start ∧ source.IsBoundary token.stop ∧
          ∃ text, token.text? source = some text := by
  have hsource := language.source_lexemes source
  have htiles := tiles_spansFrom (language.solid_lexemes source) 0
  rw [hsource, Nat.zero_add] at htiles
  rw [tokens_eq, tokensFrom_eq_filter]
  constructor
  · refine List.Pairwise.filter _ ?_
    refine htiles.pairwise.imp_of_mem fun ht _ hle => ⟨?_, hle⟩
    exact Nat.lt_of_lt_of_le (htiles.bounds ht).2.1 hle
  · intro token htoken
    obtain ⟨htoken, hkind⟩ := List.mem_filter.1 htoken
    obtain ⟨-, hlt, hle⟩ := htiles.bounds htoken
    obtain ⟨l, -, before, after, hsplit, rfl⟩ := exists_of_mem_spansFrom [] htoken
    rw [hsource, List.nil_append] at hsplit
    refine ⟨by simpa using hkind, hlt, hle, ⟨before, l.text ++ after, hsplit, rfl⟩,
      ⟨before ++ l.text, after, ?_, ?_⟩, l.text, ?_⟩
    · rw [hsplit, List.append_assoc]
    · rw [Text.byteLength_append]
    · rw [Token.text?, hsplit, Text.slice?_append]

end Language

end SourceMarkup
