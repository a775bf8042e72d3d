import SourceMarkup.Proofs.Scan.Language
import SourceMarkup.Proofs.Token.Selection

/-!
# What covers keep and what they add

A cover keeps all tokens that can stand beside each other, and adds nothing but the gaps
between them. The tokens of a language can all stand beside each other, so its covers keep
them all.
-/

namespace SourceMarkup

open Lexeme

namespace Language

/-- No token of a language is misplaced in its source. -/
theorem kept_tokens (language : Language) (source : Text) :
    Token.kept source.byteLength 0 (language.tokens source) = language.tokens source :=
  Token.kept_of_pairwise (fun token _ => Nat.zero_le token.start)
    (fun _ htoken => (bounds_of_mem_tokens htoken).2) (language.pairwise_tokens source)

/-- Which tokens a cover keeps, and what it adds: tokens in any order, none of which ends
before it starts, are selected greedily, and the gaps between the selected ones are filled.
A cover is its own cover. For the tokens of a language that means that all of them are kept,
and what is not plain in a cover is what its scan has found. -/
theorem cover_selects :
    (∀ (size : Nat) (tokens : List Token), (∀ token ∈ tokens, token.start ≤ token.stop) →
      (∃ parts : List Token.Part,
        Token.cover size tokens = parts.map Token.Part.token ∧
          parts.filterMap Token.Part.kept? = Token.selection size tokens ∧
          (Token.selection size tokens).Sublist tokens ∧
          (∀ start stop, .gap start stop ∈ parts → start < stop) ∧
          parts.IsChain fun part next => ¬ (part.IsGap ∧ next.IsGap)) ∧
        Token.cover size (Token.cover size tokens) = Token.cover size tokens) ∧
      ∀ (language : Language) (source : Text),
        Token.selection source.byteLength (language.tokens source) = language.tokens source ∧
          (language.cover source).filter (fun token => token.kind ≠ .plain) =
            language.tokens source := by
  constructor
  · intro size tokens h
    refine ⟨⟨Token.Part.fill size 0 (Token.selection size tokens),
      Token.cover_eq_fill size h, Token.Part.filterMap_kept?_fill _ _ _, ?_,
      fun _ _ => Token.Part.lt_of_gap_mem_fill, Token.Part.isChain_fill _ _ _⟩,
      Token.cover_cover size h⟩
    rw [Token.selection_eq_kept size h]
    exact Token.kept_sublist size 0 tokens
  · intro language source
    have hle : ∀ token ∈ language.tokens source, token.start ≤ token.stop :=
      fun _ htoken => Nat.le_of_lt (bounds_of_mem_tokens htoken).2.1
    have hall : Token.selection source.byteLength (language.tokens source) =
        language.tokens source :=
      (Token.selection_eq_kept _ hle).trans (language.kept_tokens source)
    have hparts : (Token.Part.fill source.byteLength 0 (language.tokens source)).filterMap
        Token.Part.kept? = language.tokens source := Token.Part.filterMap_kept?_fill _ _ _
    refine ⟨hall, ?_⟩
    rw [cover, Token.cover_eq_fill _ hle, hall, Token.Part.filter_map_token, hparts]
    rw [hparts]
    exact fun _ htoken => (bounds_of_mem_tokens htoken).1

/-- A token that overlaps a dropped one is kept. -/
theorem cover_selects_overlapping :
    let tokens : List Token := [⟨.keyword, 0, 3⟩, ⟨.number, 2, 6⟩, ⟨.charLiteral, 4, 6⟩]
    (∀ token ∈ tokens, token.start ≤ token.stop) ∧
      ∃ parts : List Token.Part,
        parts.map Token.Part.token =
            [⟨.keyword, 0, 3⟩, ⟨.plain, 3, 4⟩, ⟨.charLiteral, 4, 6⟩, ⟨.plain, 6, 7⟩] ∧
          parts.filterMap Token.Part.kept? = [⟨.keyword, 0, 3⟩, ⟨.charLiteral, 4, 6⟩] := by
  intro tokens
  have hle : ∀ token ∈ tokens, token.start ≤ token.stop := by decide
  obtain ⟨⟨parts, hcover, hkept, -⟩, -⟩ := cover_selects.1 7 tokens hle
  refine ⟨hle, parts, hcover.symm, ?_⟩
  rw [hkept]
  decide

end Language

end SourceMarkup
