import SourceMarkup.Markup.RawText
import SourceMarkup.Proofs.Pattern.Run

/-!
# The six rules of raw text

What each rule does to any text, told without patterns. The first rule drops span
tags, the next three replace a fixed text each, and the last two trim blanks.
-/

namespace SourceMarkup

namespace Markup

open Pattern

def tagSet : CharSet :=
  .compl (.ofChars ['\n', '\r', '\u2028', '\u2029'])

def blankSet : CharSet :=
  .inter (.union .whiteSpace (.single '\ufeff')) (.compl (.single '\u0085'))

def spanOpening : Text := ['<', 's', 'p', 'a', 'n']

def spanClosing : Text := ['<', '/', 's', 'p', 'a', 'n', '>']

/-- The length of the span tag at the start of a text. -/
def spanTagLength? (t : Text) : Option Nat :=
  if spanOpening.isPrefixOf t then
    (Regex.untilLength? tagSet '>' (t.drop spanOpening.length)).map
      (spanOpening.length + ·)
  else Regex.literalLength? spanClosing t

def stripTags (t : Text) : Text :=
  replaceWith spanTagLength? [] t

def replaceLiteral (w replacement t : Text) : Text :=
  replaceWith (Regex.literalLength? w) replacement t

def unescape (t : Text) : Text :=
  replaceLiteral "&amp;".toList ['&']
    (replaceLiteral "&gt;".toList ['>'] (replaceLiteral "&lt;".toList ['<'] t))

theorem regex_ofSource {source : Text} {regex : Regex} (h : (parse? source).isSome)
    (hparse : parse? source = some regex) : (ofSource source h).regex = regex := by
  simp [ofSource, hparse]

theorem contains_blankSet : blankSet.contains = Text.isBlank :=
  rfl

theorem matchLength?_spanTag (before : Option Char) (t : Text) :
    Regex.matchLength? (.alt (.literalThen spanOpening (.lazyThen tagSet '>'))
      (.literalThen spanClosing .empty)) before t = spanTagLength? t := by
  rw [Regex.matchLength?, spanOpening, spanClosing, Regex.matchFrom_alt (by decide),
    ← spanOpening, ← spanClosing, Regex.matchFrom_literalThen,
    Regex.matchFrom_literalThen, Regex.matchFrom_empty_cons, Nat.zero_add,
    Regex.matchFrom_lazy (Regex.leads_lazyThen tagSet '>'), spanTagLength?,
    Regex.literalLength?, Nat.zero_add]
  cases hopening : spanOpening.isPrefixOf t with
  | true =>
      obtain ⟨rest, hrest⟩ := List.isPrefixOf_iff_prefix.1 hopening
      have hsecond : t.tail.head? = some 's' := by rw [← hrest]; rfl
      rw [if_pos hsecond, if_pos rfl, if_pos rfl]
      cases Regex.untilLength? tagSet '>' (t.drop spanOpening.length) <;> rfl
  | false =>
      by_cases hsecond : t.tail.head? = some 's'
      · have hclosing : spanClosing.isPrefixOf t = false := by
          rw [Bool.eq_false_iff]
          intro hclosing
          obtain ⟨rest, hrest⟩ := List.isPrefixOf_iff_prefix.1 hclosing
          rw [← hrest] at hsecond
          exact absurd (Option.some.inj hsecond) (by decide)
        simp [hclosing]
      · rw [if_neg hsecond]
        rfl

theorem replaceAll_literal {w : Text} (hw : w ≠ []) (replacement t : Text) :
    (Regex.literalThen w .empty).replaceAll replacement t =
      replaceLiteral w replacement t := by
  refine Regex.replaceAll_eq (Regex.matchLength?_literal w) ?_ ?_ replacement t
  · cases w with
    | nil => exact absurd rfl hw
    | cons c cs => rfl
  · intro t
    rw [Regex.literalLength?]
    split
    · simpa using hw
    · exact (Option.some_ne_none 0).symm

theorem spanTagLength?_ne_zero (t : Text) : spanTagLength? t ≠ some 0 := by
  rw [spanTagLength?]
  split
  · cases Regex.untilLength? tagSet '>' (t.drop spanOpening.length) with
    | none => exact (Option.some_ne_none 0).symm
    | some n => simp [spanOpening]
  · rw [Regex.literalLength?]
    split
    · simp [spanClosing]
    · exact (Option.some_ne_none 0).symm

theorem replaceAll_spanTag (t : Text) :
    (Regex.alt (.literalThen spanOpening (.lazyThen tagSet '>'))
      (.literalThen spanClosing .empty)).replaceAll [] t = stripTags t :=
  Regex.replaceAll_eq matchLength?_spanTag rfl spanTagLength?_ne_zero [] t

/-! ### The rules one by one -/

theorem apply_spanTag (t : Text) :
    ReplacementRule.apply ⟨.ofSource spanTagSource (by decide), []⟩ t = stripTags t := by
  have hregex : (ofSource spanTagSource (by decide)).regex =
      .alt (.literalThen spanOpening (.lazyThen tagSet '>'))
        (.literalThen spanClosing .empty) :=
    regex_ofSource _ rfl
  rw [ReplacementRule.apply, hregex, replaceAll_spanTag]

/-- A rule whose pattern is a fixed text. -/
theorem apply_literal {w : Text} (hw : w ≠ []) (h : (parse? w).isSome)
    (hparse : parse? w = some (.literalThen w .empty)) (replacement t : Text) :
    ReplacementRule.apply ⟨.ofSource w h, replacement⟩ t =
      replaceLiteral w replacement t := by
  rw [ReplacementRule.apply, regex_ofSource h hparse, replaceAll_literal hw]

theorem apply_leadingBlanks (t : Text) :
    ReplacementRule.apply ⟨.ofSource leadingBlanksSource (by decide), []⟩ t =
      Text.trimStart Text.isBlank t := by
  have hregex : (ofSource leadingBlanksSource (by decide)).regex = .leadingRun blankSet :=
    regex_ofSource _ rfl
  rw [ReplacementRule.apply, hregex, Regex.replaceAll_leadingRun, contains_blankSet]

theorem apply_trailingBlanks (t : Text) :
    ReplacementRule.apply ⟨.ofSource trailingBlanksSource (by decide), []⟩ t =
      Text.trimEnd Text.isBlank t := by
  have hregex :
      (ofSource trailingBlanksSource (by decide)).regex = .trailingRun blankSet :=
    regex_ofSource _ rfl
  rw [ReplacementRule.apply, hregex, Regex.replaceAll_trailingRun, contains_blankSet]

/-- Raw text, told without patterns. -/
theorem toRawText_eq (markup : Text) :
    toRawText markup = Text.trim Text.isBlank (unescape (stripTags markup)) := by
  have hlt : "&lt;".toList ≠ [] := by decide
  have hgt : "&gt;".toList ≠ [] := by decide
  have hamp : "&amp;".toList ≠ [] := by decide
  rw [toRawText, rawTextRules, ReplacementRule.applyAll, List.foldl_cons, apply_spanTag,
    List.foldl_cons, apply_literal hlt _ rfl, List.foldl_cons, apply_literal hgt _ rfl,
    List.foldl_cons, apply_literal hamp _ rfl, List.foldl_cons, apply_leadingBlanks,
    List.foldl_cons, apply_trailingBlanks, List.foldl_nil, unescape, Text.trim]

end Markup

end SourceMarkup
