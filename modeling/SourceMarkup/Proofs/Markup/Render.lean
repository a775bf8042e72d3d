import Mathlib.Data.List.Forall2
import SourceMarkup.Markup.Render
import SourceMarkup.Proofs.Scan.Language

/-!
# Rendering a cover

Every token of a cover cuts its lexeme out of the source, so the cover of a source
can be rendered. Its plain tokens may join several plain lexemes, which render to
the same, as plain text stands bare and is escaped part by part.
-/

namespace SourceMarkup

namespace Markup

open Lexeme

variable {scheme : Attributes}

theorem span_append (a text t : Text) :
    span a text ++ t =
      "<span ".toList ++ (a ++ '>' :: (text ++ ("</span>".toList ++ t))) := by
  unfold span
  generalize "<span ".toList = opening
  generalize "</span>".toList = closing
  simp

theorem lexeme?_append (kind : TokenKind) (before text after : Text) :
    lexeme? (before ++ (text ++ after))
        ⟨kind, before.byteLength, before.byteLength + text.byteLength⟩ =
      some ⟨kind, text⟩ := by
  rw [lexeme?, Token.text?, Text.slice?_append]
  rfl

theorem mapM_lexeme?_spansFrom (before : Text) (ls : List Lexeme) :
    (spansFrom before.byteLength ls).mapM (lexeme? (before ++ source ls)) = some ls := by
  induction ls generalizing before with
  | nil => rfl
  | cons l ls ih =>
      have hrest := ih (before ++ l.text)
      rw [Text.byteLength_append, List.append_assoc] at hrest
      rw [spansFrom, List.mapM_cons, source_cons, lexeme?_append, Option.bind_eq_bind,
        Option.bind_some, hrest]
      rfl

/-- Tokens that can be cut out of a source cut out the lexemes that they render to. -/
theorem exists_mapM_lexeme? {source : Text} {tokens : List Token}
    (h : ∀ token ∈ tokens, ∃ text, token.text? source = some text) :
    ∃ ls, tokens.mapM (lexeme? source) = some ls ∧
      List.Forall₂ (fun token text => token.text? source = some text) tokens
        (ls.map Lexeme.text) := by
  induction tokens with
  | nil => exact ⟨[], rfl, .nil⟩
  | cons token tokens ih =>
      obtain ⟨⟨text, htext⟩, htokens⟩ := List.forall_mem_cons.1 h
      obtain ⟨ls, hls, htexts⟩ := ih htokens
      refine ⟨⟨token.kind, text⟩ :: ls, ?_, .cons htext htexts⟩
      rw [List.mapM_cons, lexeme?, htext, hls]
      rfl

theorem renderLexeme_plain (scheme : Attributes) (text : Text) :
    renderLexeme scheme ⟨.plain, text⟩ = escape text := rfl

theorem renderLexemes_append (scheme : Attributes) (ls ms : List Lexeme) :
    renderLexemes scheme (ls ++ ms) =
      renderLexemes scheme ls ++ renderLexemes scheme ms := by
  simp [renderLexemes]

theorem renderLexemes_plainPart (scheme : Attributes) (text : Text) :
    renderLexemes scheme (plainPart text) = escape text := by
  cases text with
  | nil => rfl
  | cons c cs => simp [renderLexemes, plainPart, renderLexeme_plain]

theorem renderLexemes_mergeFrom (scheme : Attributes) (pending : Text)
    (ls : List Lexeme) :
    renderLexemes scheme (mergeFrom pending ls) =
      escape pending ++ renderLexemes scheme ls := by
  induction ls generalizing pending with
  | nil => rw [mergeFrom, renderLexemes_plainPart]; simp [renderLexemes]
  | cons l ls ih =>
      obtain ⟨kind, text⟩ := l
      have hcons : renderLexemes scheme (⟨kind, text⟩ :: ls) =
          renderLexeme scheme ⟨kind, text⟩ ++ renderLexemes scheme ls := rfl
      rw [mergeFrom]
      by_cases hplain : kind = .plain
      · subst hplain
        rw [if_pos rfl, ih, hcons, renderLexeme_plain, escape_append, List.append_assoc]
      · rw [if_neg hplain, renderLexemes_append, renderLexemes_plainPart]
        have hrest : renderLexemes scheme (⟨kind, text⟩ :: mergeFrom [] ls) =
            renderLexeme scheme ⟨kind, text⟩ ++ renderLexemes scheme (mergeFrom [] ls) :=
          rfl
        rw [hrest, ih, hcons, escape_nil, List.nil_append]

theorem mapM_lexeme?_cover (language : Language) (source : Text) :
    (language.cover source).mapM (lexeme? source) =
      some (merge (language.lexemes source)) := by
  have hsource : Lexeme.source (merge (language.lexemes source)) = source := by
    rw [source_merge, language.source_lexemes]
  have hspans := mapM_lexeme?_spansFrom [] (merge (language.lexemes source))
  rw [hsource, List.nil_append, Text.byteLength_nil] at hspans
  rw [language.cover_eq, hspans]

/-- Highlighting never fails. -/
theorem highlight?_eq (settings : Settings) (source : Text) :
    highlight? settings source = some (highlight settings source) := by
  rw [highlight?, render?, mapM_lexeme?_cover, Option.map_some, merge,
    renderLexemes_mergeFrom, escape_nil, List.nil_append, highlight]

end Markup

end SourceMarkup
