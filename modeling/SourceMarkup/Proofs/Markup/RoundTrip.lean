import SourceMarkup.Proofs.Markup.Escape
import SourceMarkup.Proofs.Markup.Render
import SourceMarkup.Proofs.Markup.Scheme
import SourceMarkup.Proofs.Text.Trim

/-!
# From markup back to the source

Rendered lexemes lose their span tags and nothing else by the first rule of raw
text, if attributes stay in their tag: escaped text holds no `<`, so what looks like
a tag in a source is not found. The next three rules undo the escaping, and the last
two trim the source.
-/

namespace SourceMarkup

namespace Markup

open Lexeme Pattern

theorem stripTags_nil : stripTags [] = [] :=
  replaceWith_nil

theorem stripTags_append {u : Text} (hu : '<' ∉ u) (t : Text) :
    stripTags (u ++ t) = u ++ stripTags t := by
  refine replaceWith_append (fun v w t hsplit hw => ?_) t
  cases w with
  | nil => exact absurd rfl hw
  | cons c cs =>
      have hc : ('<' == c) = false := by
        refine beq_false_of_ne ?_
        rintro rfl
        exact hu (by simp [hsplit])
      have hnone : ∀ p, ('<' :: p).isPrefixOf (c :: cs ++ t) = false := by
        intro p
        rw [List.cons_append, List.isPrefixOf_cons_cons, hc, Bool.false_and]
      rw [spanTagLength?, spanOpening, hnone, Regex.literalLength?, spanClosing, hnone]
      rfl

theorem untilLength?_append {a : Text} (h : a.all staysInTag) (t : Text) :
    Regex.untilLength? tagSet '>' (a ++ '>' :: t) = some (a.length + 1) := by
  induction a with
  | nil => rfl
  | cons c cs ih =>
      rw [List.all_cons, Bool.and_eq_true, staysInTag, Bool.and_eq_true, bne_iff_ne] at h
      rw [List.cons_append, Regex.untilLength?, if_neg h.1.2, if_pos h.1.1, ih h.2]
      rfl

theorem stripTags_opening {a : Text} (h : a.all staysInTag) (t : Text) :
    stripTags ("<span ".toList ++ (a ++ '>' :: t)) = stripTags t := by
  have hbody : (' ' :: a).all staysInTag := by
    rw [List.all_cons, h]
    decide
  have hrest : (' ' :: a ++ ['>']) ++ t = ' ' :: a ++ '>' :: t := by
    rw [List.append_assoc, List.singleton_append]
  have hlength : spanTagLength? ((spanOpening ++ (' ' :: a ++ ['>'])) ++ t) =
      some (spanOpening ++ (' ' :: a ++ ['>'])).length := by
    have hprefix :
        spanOpening.isPrefixOf (spanOpening ++ (' ' :: a ++ ['>']) ++ t) = true := by
      rw [List.append_assoc]
      exact List.isPrefixOf_iff_prefix.2 (List.prefix_append _ _)
    rw [spanTagLength?, if_pos hprefix, List.append_assoc, List.drop_left, hrest,
      untilLength?_append hbody, Option.map_some, List.length_append, List.length_append]
    rfl
  have hsplit : "<span ".toList ++ (a ++ '>' :: t) =
      (spanOpening ++ (' ' :: a ++ ['>'])) ++ t := by
    rw [List.append_assoc, hrest]
    rfl
  have hne : spanOpening ++ (' ' :: a ++ ['>']) ≠ [] := List.cons_ne_nil _ _
  rw [hsplit, stripTags, replaceWith_match hne hlength, List.nil_append, stripTags]

theorem stripTags_closing (t : Text) :
    stripTags ("</span>".toList ++ t) = stripTags t := by
  have hlength : spanTagLength? (spanClosing ++ t) = some spanClosing.length :=
    rfl
  exact replaceWith_match (List.cons_ne_nil _ _) hlength

variable {scheme : Attributes}

theorem stripTags_renderLexeme (h : StayInTag scheme) (lexeme : Lexeme) (t : Text) :
    stripTags (renderLexeme scheme lexeme ++ t) = escape lexeme.text ++ stripTags t := by
  have htext := (isEscaped_escape lexeme.text).no_opening
  rw [renderLexeme]
  cases hattributes : spanAttributes? scheme lexeme.kind with
  | none => exact stripTags_append htext t
  | some a =>
      rw [spanAttributes?] at hattributes
      split at hattributes
      · contradiction
      · have ha := h lexeme.kind a hattributes
        dsimp only
        rw [span_append, stripTags_opening ha, stripTags_append htext, stripTags_closing]

theorem stripTags_renderLexemes (h : StayInTag scheme) (ls : List Lexeme) (t : Text) :
    stripTags (renderLexemes scheme ls ++ t) = escape (source ls) ++ stripTags t := by
  induction ls with
  | nil => rfl
  | cons l ls ih =>
      have hcons : renderLexemes scheme (l :: ls) =
          renderLexeme scheme l ++ renderLexemes scheme ls := rfl
      rw [hcons, List.append_assoc, stripTags_renderLexeme h, ih, source_cons,
        escape_append, List.append_assoc]

/-- Raw text of rendered lexemes before a text without markup. -/
theorem toRawText_renderLexemes (h : StayInTag scheme) (ls : List Lexeme) {t : Text}
    (ht : escape t = t) :
    toRawText (renderLexemes scheme ls ++ t) =
      Text.trim Text.isBlank (source ls ++ t) := by
  have hopening : '<' ∉ t := ht ▸ (isEscaped_escape t).no_opening
  have hstrip : stripTags t = t := by
    have happend := stripTags_append hopening []
    rwa [stripTags_nil, List.append_nil] at happend
  have hescape : escape (source ls) ++ t = escape (source ls ++ t) := by
    rw [escape_append, ht]
  rw [toRawText_eq, stripTags_renderLexemes h, hstrip, hescape, unescape_escape]

/-- Highlighting a source never fails, and raw text of the markup is the source
without the blanks at its ends. A line feed after the markup makes no difference. -/
theorem toRawText_highlight (settings : Settings) (source : Text) :
    ∃ html, highlight? settings source = some html ∧
      toRawText html = Text.trim Text.isBlank source ∧
      toRawText (html ++ ['\n']) = Text.trim Text.isBlank source := by
  have hsource := settings.language.source_lexemes source
  have hscheme := stayInTag_schemeOf settings
  refine ⟨highlight settings source, highlight?_eq settings source, ?_, ?_⟩
  · have hraw := toRawText_renderLexemes hscheme (settings.language.lexemes source)
      escape_nil
    rwa [List.append_nil, List.append_nil, hsource] at hraw
  · have hraw := toRawText_renderLexemes hscheme (settings.language.lexemes source)
      (show escape ['\n'] = ['\n'] by decide)
    rw [hsource, Text.trim_append_singleton (by decide)] at hraw
    exact hraw

/-! ### Tokens in any order -/

/-- Raw text undoes rendering for any tokens that can be cut out of a source, whether or
not they overlap and in whichever order they come, if the values of the style rules hold
no end of a tag and no end of a line. What else they hold makes no difference. -/
theorem toRawText_render {styles : StyleScheme} {source : Text} {tokens : List Token}
    (hvalues : ∀ kind, ∀ rule ∈ styles.rules kind, ∀ c ∈ rule.value,
      c ∉ ['>', '\n', '\r', '\u2028', '\u2029'])
    (htokens : ∀ token ∈ tokens, token.start ≤ token.stop ∧
      source.IsBoundary token.start ∧ source.IsBoundary token.stop)
    (markup : MarkupType) :
    ∃ texts html,
      List.Forall₂ (fun token text => token.text? source = some text) tokens texts ∧
      render? (attributes markup styles) source tokens = some html ∧
      toRawText html = Text.trim Text.isBlank texts.flatten := by
  have hscheme : StayInTag (attributes markup styles) := by
    refine stayInTag_attributes (fun kind rule hrule => ?_) markup
    exact List.all_eq_true.2 fun c hc => staysInTag_iff.2 (hvalues kind rule hrule c hc)
  have hcut : ∀ token ∈ tokens, ∃ text, token.text? source = some text := by
    intro token htoken
    obtain ⟨hle, hstart, hstop⟩ := htokens token htoken
    exact Text.exists_slice?_of_isBoundary hle hstart hstop
  obtain ⟨ls, hls, htexts⟩ := exists_mapM_lexeme? hcut
  refine ⟨ls.map Lexeme.text, renderLexemes (attributes markup styles) ls, htexts, ?_, ?_⟩
  · rw [render?, hls]
    rfl
  · have hraw := toRawText_renderLexemes hscheme ls escape_nil
    rw [List.append_nil, List.append_nil] at hraw
    rw [hraw, ← List.flatMap_def]
    rfl

/-- Two tokens that overlap and stand in reverse order, in a scheme with half a tag among
its values. -/
theorem toRawText_render_overlapping :
    let styles := (StyleScheme.empty .idea).register .keyword [.color "<span \"&lt;"]
    ∃ html, render? (attributes .inline styles) "a<b ".toList
        [⟨.keyword, 2, 4⟩, ⟨.plain, 0, 3⟩] = some html ∧
      toRawText html = "b a<b".toList := by
  intro styles
  have hvalues : ∀ kind, ∀ rule ∈ styles.rules kind, ∀ c ∈ rule.value,
      c ∉ ['>', '\n', '\r', '\u2028', '\u2029'] := by
    intro kind rule hrule c hc
    have hall : ∀ rule ∈ styles.rules kind, (rule.value.all fun c =>
        decide (c ∉ ['>', '\n', '\r', '\u2028', '\u2029'])) = true := by
      cases kind <;> decide
    exact of_decide_eq_true (List.all_eq_true.1 (hall rule hrule) c hc)
  have htokens : ∀ token ∈ [Token.mk .keyword 2 4, Token.mk .plain 0 3],
      token.start ≤ token.stop ∧ Text.IsBoundary ['a', '<', 'b', ' '] token.start ∧
        Text.IsBoundary ['a', '<', 'b', ' '] token.stop := by
    simp only [List.mem_cons, List.not_mem_nil, or_false, forall_eq_or_imp, forall_eq]
    exact ⟨⟨by decide, ⟨['a', '<'], _, rfl, by decide⟩,
        ⟨['a', '<', 'b', ' '], [], rfl, by decide⟩⟩,
      ⟨by decide, ⟨[], _, rfl, by decide⟩, ⟨['a', '<', 'b'], _, rfl, by decide⟩⟩⟩
  obtain ⟨texts, html, htexts, hhtml, hraw⟩ := toRawText_render hvalues htokens .inline
  refine ⟨html, hhtml, ?_⟩
  cases htexts with
  | cons hfirst hrest =>
      cases hrest with
      | cons hsecond hnil =>
          cases hnil
          rw [hraw, Option.some.inj (hfirst.symm.trans (by decide : _ = some ['b', ' '])),
            Option.some.inj (hsecond.symm.trans (by decide : _ = some ['a', '<', 'b']))]
          decide

end Markup

end SourceMarkup
