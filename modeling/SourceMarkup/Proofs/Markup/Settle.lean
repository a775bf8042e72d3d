import SourceMarkup.Proofs.Markup.RoundTrip
import SourceMarkup.Proofs.Markup.Unescape
import SourceMarkup.Proofs.Pattern.Shorten

/-!
# Raw text of raw text

Every rule of raw text shortens: a tag and a blank are dropped, and a reference is longer
than the character that it stands for. So raw text is never longer than the markup it
comes from, it is the markup itself exactly where no rule matches, and taking raw text
again and again settles.

It may take more than one step. What a rule leaves behind can be a tag or a reference for
the next step, as in `<sp<span>an>`, and raw text of a highlighted source is the source,
which may have tags and references of its own. So a second step keeps what the first one
gave back of a highlighted source if and only if the source has none.
-/

namespace SourceMarkup

namespace Markup

open Pattern

/-- The tags of spans: the closing one, and an opening one without an end of a line. -/
def IsSpanTag (tag : Text) : Prop :=
  tag = spanClosing ∨
    ∃ body, (∀ c ∈ body, c ∉ ['\n', '\r', '\u2028', '\u2029']) ∧
      tag = spanOpening ++ body ++ ['>']

/-- A text with no tag of a span and no reference of escaped text in it. -/
structure Unmarked (m : Text) : Prop where
  no_tag : ∀ tag, IsSpanTag tag → ¬ tag <:+: m
  no_reference : ∀ entry ∈ references, ¬ entry.1 <:+: m

/-- A text with nothing in it that raw text replaces or trims. -/
structure Settled (m : Text) : Prop extends Unmarked m where
  no_leading : m.head?.any Text.isBlank = false
  no_trailing : m.getLast?.any Text.isBlank = false

def leadingRule : ReplacementRule :=
  rawTextRules.get ⟨4, by decide⟩

def trailingRule : ReplacementRule :=
  rawTextRules.get ⟨5, by decide⟩

variable {rule : ReplacementRule} {regex : Regex} {m t w : Text}

/-! ### What the rules match -/

theorem contains_tagSet_iff {c : Char} :
    tagSet.contains c = true ↔ c ∉ ['\n', '\r', '\u2028', '\u2029'] := by
  simp [tagSet, CharSet.contains, CharSet.ofChars, CharSet.unions]

theorem isSome_spanTagLength?_iff :
    (spanTagLength? t).isSome ↔ ∃ tag, IsSpanTag tag ∧ tag <+: t := by
  rw [spanTagLength?]
  by_cases hopening : spanOpening <+: t
  · obtain ⟨after, rfl⟩ := hopening
    rw [if_pos (List.isPrefixOf_iff_prefix.2 (List.prefix_append _ _)), Option.isSome_map,
      List.drop_left, Regex.isSome_untilLength?_iff]
    constructor
    · rintro ⟨body, rest, rfl, hbody⟩
      refine ⟨spanOpening ++ body ++ ['>'],
        .inr ⟨body, fun c hc => contains_tagSet_iff.1 (hbody c hc), rfl⟩, rest, ?_⟩
      simp
    · rintro ⟨tag, rfl | ⟨body, hbody, rfl⟩, rest, hrest⟩
      · exact absurd (List.cons.inj (List.cons.inj hrest).2).1 (by decide)
      · refine ⟨body, rest, ?_, fun c hc => contains_tagSet_iff.2 (hbody c hc)⟩
        rw [List.append_assoc, List.append_assoc] at hrest
        exact (List.append_cancel_left hrest).symm
  · rw [if_neg fun h => hopening (List.isPrefixOf_iff_prefix.1 h),
      Regex.isSome_literalLength?_iff]
    constructor
    · exact fun hclosing => ⟨spanClosing, .inl rfl, hclosing⟩
    · rintro ⟨tag, rfl | ⟨body, -, rfl⟩, hstarts⟩
      · exact hstarts
      · rw [List.append_assoc] at hstarts
        exact absurd ((List.prefix_append _ _).trans hstarts) hopening

theorem regex_tagRule :
    tagRule.pattern.regex = .alt (.literalThen spanOpening (.lazyThen tagSet '>'))
      (.literalThen spanClosing .empty) :=
  regex_ofSource _ rfl

theorem regex_ltRule : ltRule.pattern.regex = .literalThen "&lt;".toList .empty :=
  regex_ofSource _ rfl

theorem regex_gtRule : gtRule.pattern.regex = .literalThen "&gt;".toList .empty :=
  regex_ofSource _ rfl

theorem regex_ampRule : ampRule.pattern.regex = .literalThen "&amp;".toList .empty :=
  regex_ofSource _ rfl

theorem regex_leadingRule : leadingRule.pattern.regex = .leadingRun blankSet :=
  regex_ofSource _ rfl

theorem regex_trailingRule : trailingRule.pattern.regex = .trailingRun blankSet :=
  regex_ofSource _ rfl

theorem tagRule_matchesIn_iff :
    tagRule.MatchesIn m ↔ ∃ tag, IsSpanTag tag ∧ tag <:+: m := by
  rw [ReplacementRule.MatchesIn, regex_tagRule, Regex.matchesAfter_iff matchLength?_spanTag]
  simp only [isSome_spanTagLength?_iff, List.infix_iff_prefix_suffix]
  constructor
  · rintro ⟨v, hv, tag, htag, hstarts⟩
    exact ⟨tag, htag, v, hstarts, hv⟩
  · rintro ⟨tag, htag, v, hstarts, hv⟩
    exact ⟨v, hv, tag, htag, hstarts⟩

theorem literal_matchesIn_iff (h : rule.pattern.regex = .literalThen w .empty) :
    rule.MatchesIn m ↔ w <:+: m := by
  rw [ReplacementRule.MatchesIn, h, Regex.matchesAfter_iff (Regex.matchLength?_literal w),
    List.infix_iff_prefix_suffix]
  simp only [Regex.isSome_literalLength?_iff, and_comm]

theorem leadingRule_matchesIn_iff :
    leadingRule.MatchesIn m ↔ m.head?.any Text.isBlank = true := by
  rw [ReplacementRule.MatchesIn, regex_leadingRule]
  constructor
  · rintro ⟨u, v, rfl, hmatch⟩
    rw [Regex.matchLength?_leadingRun, Option.isSome_ite] at hmatch
    obtain ⟨hbefore, hrun⟩ := hmatch
    rw [Option.or_none, List.getLast?_eq_none_iff] at hbefore
    subst hbefore
    cases v with
    | nil => exact absurd rfl hrun
    | cons c cs =>
        rw [List.nil_append, List.head?_cons, Option.any_some]
        by_contra hc
        exact hrun (by simp [Lexeme.runLength, contains_blankSet, hc])
  · intro hhead
    obtain ⟨c, hc, hblank⟩ := (Option.any_eq_true _ _).1 hhead
    obtain ⟨cs, rfl⟩ := List.head?_eq_some_iff.1 hc
    refine ⟨[], c :: cs, rfl, ?_⟩
    rw [Regex.matchLength?_leadingRun, Option.isSome_ite]
    exact ⟨rfl, by simp [Lexeme.runLength, contains_blankSet, hblank]⟩

theorem trailingRule_matchesIn_iff :
    trailingRule.MatchesIn m ↔ m.getLast?.any Text.isBlank = true := by
  rw [ReplacementRule.MatchesIn, regex_trailingRule]
  constructor
  · rintro ⟨u, v, rfl, hmatch⟩
    rw [Regex.matchLength?_trailingRun, Option.isSome_ite] at hmatch
    obtain ⟨hne, hall⟩ := hmatch
    rw [List.getLast?_append, List.getLast?_eq_some_getLast hne, Option.some_or,
      Option.any_some]
    exact List.all_eq_true.1 hall _ (List.getLast_mem hne)
  · intro hlast
    obtain ⟨c, hc, hblank⟩ := (Option.any_eq_true _ _).1 hlast
    obtain ⟨front, rfl⟩ := List.getLast?_eq_some_iff.1 hc
    refine ⟨front, [c], rfl, ?_⟩
    rw [Regex.matchLength?_trailingRun, Option.isSome_ite]
    exact ⟨List.cons_ne_nil c [], by simp [contains_blankSet, hblank]⟩

theorem rawTextRules_eq :
    rawTextRules = [tagRule, ltRule, gtRule, ampRule, leadingRule, trailingRule] := rfl

/-- No rule matches in a text if and only if it has no tag, no reference, and no blank at
an end. -/
theorem not_matchesIn_iff_settled :
    (∀ rule ∈ rawTextRules, ¬ rule.MatchesIn m) ↔ Settled m := by
  simp only [rawTextRules_eq, List.forall_mem_cons, tagRule_matchesIn_iff,
    literal_matchesIn_iff regex_ltRule, literal_matchesIn_iff regex_gtRule,
    literal_matchesIn_iff regex_ampRule, leadingRule_matchesIn_iff,
    trailingRule_matchesIn_iff, not_exists, not_and, Bool.not_eq_true]
  constructor
  · rintro ⟨htag, hlt, hgt, hamp, hleading, htrailing, -⟩
    refine ⟨⟨htag, ?_⟩, hleading, htrailing⟩
    simp only [references, List.forall_mem_cons]
    exact ⟨hlt, hgt, hamp, List.forall_mem_nil _⟩
  · rintro ⟨⟨htag, hreference⟩, hleading, htrailing⟩
    simp only [references, List.forall_mem_cons] at hreference
    obtain ⟨hlt, hgt, hamp, -⟩ := hreference
    exact ⟨htag, hlt, hgt, hamp, hleading, htrailing, List.forall_mem_nil _⟩

/-! ### The rules shorten -/

theorem shortens_literal (h : rule.pattern.regex = .literalThen w .empty)
    (hlt : rule.replacement.byteLength < w.byteLength) : rule.Shortens := by
  intro before t n hmatch
  rw [h, Regex.matchLength?_literal, Regex.literalLength?,
    Option.ite_none_right_eq_some] at hmatch
  obtain ⟨hstarts, hn⟩ := hmatch
  obtain ⟨rest, rfl⟩ := List.isPrefixOf_iff_prefix.1 hstarts
  rw [← Option.some.inj hn, List.take_left]
  exact hlt

theorem shortens_of_mem_rawTextRules : ∀ rule ∈ rawTextRules, rule.Shortens := by
  simp only [rawTextRules_eq, List.forall_mem_cons]
  refine ⟨?_, shortens_literal regex_ltRule (by decide),
    shortens_literal regex_gtRule (by decide), shortens_literal regex_ampRule (by decide),
    ?_, ?_, List.forall_mem_nil _⟩
  · rw [ReplacementRule.Shortens, regex_tagRule]
    refine Regex.shortens_nil (fun before => ?_) (fun before t => ?_)
    · rw [matchLength?_spanTag]
      rfl
    · rw [matchLength?_spanTag]
      exact spanTagLength?_ne_zero t
  · rw [ReplacementRule.Shortens, regex_leadingRule]
    refine Regex.shortens_nil (fun before => ?_) (fun before t => ?_)
    · rw [Regex.matchLength?_leadingRun]
      exact if_neg fun h => h.2 rfl
    · rw [Regex.matchLength?_leadingRun, ne_eq, Option.ite_none_right_eq_some]
      exact fun h => h.1.2 (Option.some.inj h.2)
  · rw [ReplacementRule.Shortens, regex_trailingRule]
    refine Regex.shortens_nil (fun before => ?_) (fun before t => ?_)
    · rw [Regex.matchLength?_trailingRun]
      exact if_neg fun h => h.1 rfl
    · rw [Regex.matchLength?_trailingRun, ne_eq, Option.ite_none_right_eq_some]
      exact fun h => h.1.1 (List.length_eq_zero_iff.1 (Option.some.inj h.2))

/-- Raw text is the markup itself where no rule finds anything, and shorter otherwise. -/
theorem toRawText_cases (m : Text) :
    Settled m ∧ toRawText m = m ∨ ¬ Settled m ∧ (toRawText m).byteLength < m.byteLength := by
  rcases ReplacementRule.applyAll_cases shortens_of_mem_rawTextRules m with
    ⟨hnone, heq⟩ | ⟨⟨rule, hrule, hmatches⟩, hshorter⟩
  · exact .inl ⟨not_matchesIn_iff_settled.1 hnone, heq⟩
  · exact .inr ⟨fun h => not_matchesIn_iff_settled.2 h rule hrule hmatches, hshorter⟩

theorem toRawText_eq_self_iff : toRawText m = m ↔ Settled m := by
  rcases toRawText_cases m with ⟨hsettled, heq⟩ | ⟨hsettled, hshorter⟩
  · exact ⟨fun _ => hsettled, fun _ => heq⟩
  · refine ⟨fun heq => ?_, fun h => absurd h hsettled⟩
    exact absurd (congrArg Text.byteLength heq) hshorter.ne

/-- Raw text is shorter than the markup it comes from, in bytes, unless it is the same; and
it is the same exactly where no rule matches. Taking raw text again and again makes it
shorter step by step, and settles after at most as many steps as the markup has bytes. -/
theorem toRawText_settles (m : Text) :
    (toRawText m).byteLength ≤ m.byteLength ∧
      ((toRawText m).byteLength = m.byteLength ↔ toRawText m = m) ∧
      (toRawText m = m ↔ ∀ rule ∈ rawTextRules, ¬ rule.MatchesIn m) ∧
      ((∀ rule ∈ rawTextRules, ¬ rule.MatchesIn m) ↔ Settled m) ∧
      ∃ n ≤ m.byteLength,
        (∀ k < n, (toRawText^[k + 1] m).byteLength < (toRawText^[k] m).byteLength) ∧
        (∀ k, n ≤ k → toRawText^[k] m = toRawText^[n] m) ∧
        Settled (toRawText^[n] m) := by
  refine ⟨?_, ?_, toRawText_eq_self_iff.trans not_matchesIn_iff_settled.symm,
    not_matchesIn_iff_settled, ?_⟩
  · rcases toRawText_cases m with ⟨-, heq⟩ | ⟨-, hshorter⟩
    · rw [heq]
    · exact hshorter.le
  · refine ⟨fun hlength => ?_, fun heq => congrArg Text.byteLength heq⟩
    rcases toRawText_cases m with ⟨-, heq⟩ | ⟨-, hshorter⟩
    · exact heq
    · exact absurd hlength hshorter.ne
  · obtain ⟨n, hn, hshorter, hfixed, hnone⟩ :=
      ReplacementRule.exists_iterate_applyAll shortens_of_mem_rawTextRules m
    exact ⟨n, hn, hshorter, hfixed, not_matchesIn_iff_settled.1 hnone⟩

/-- What is left of a tag cut in two can be a tag for the next step. -/
example : toRawText "<sp<span>an>".toList = "<span>".toList ∧
    toRawText "<span>".toList = [] := by
  decide +kernel

/-! ### Raw text of a highlighted source -/

theorem unmarked_trim_iff : Unmarked (Text.trim Text.isBlank t) ↔ Unmarked t := by
  have htag : ∀ tag, IsSpanTag tag → (tag <:+: Text.trim Text.isBlank t ↔ tag <:+: t) := by
    rintro tag (rfl | ⟨body, -, rfl⟩)
    · exact Text.infix_trim_iff (by decide) (by decide) t
    · refine Text.infix_trim_iff rfl ?_ t
      rw [List.getLast?_concat]
      rfl
  have hreference : ∀ entry ∈ references,
      (entry.1 <:+: Text.trim Text.isBlank t ↔ entry.1 <:+: t) := by
    simp only [references, List.forall_mem_cons]
    exact ⟨Text.infix_trim_iff (by decide) (by decide) t,
      Text.infix_trim_iff (by decide) (by decide) t,
      Text.infix_trim_iff (by decide) (by decide) t, List.forall_mem_nil _⟩
  constructor
  · rintro ⟨hno, hnone⟩
    exact ⟨fun tag h => (htag tag h).not.1 (hno tag h),
      fun entry h => (hreference entry h).not.1 (hnone entry h)⟩
  · rintro ⟨hno, hnone⟩
    exact ⟨fun tag h => (htag tag h).not.2 (hno tag h),
      fun entry h => (hreference entry h).not.2 (hnone entry h)⟩

/-- A trimmed text is settled unless it has tags or references. -/
theorem settled_trim_iff : Settled (Text.trim Text.isBlank t) ↔ Unmarked t := by
  rw [← unmarked_trim_iff]
  exact ⟨fun h => h.toUnmarked,
    fun h => ⟨h, Text.head?_trim _ t, Text.getLast?_trim _ t⟩⟩

theorem toRawText_highlight_eq (settings : Settings) (source : Text) :
    toRawText (highlight settings source) = Text.trim Text.isBlank source := by
  have hraw := toRawText_renderLexemes (stayInTag_schemeOf settings)
    (settings.language.lexemes source) escape_nil
  rwa [List.append_nil, List.append_nil, settings.language.source_lexemes] at hraw

/-- Raw text of a highlighted source is its own raw text if and only if the source has no
tags of spans and no references of escaped text. Otherwise its raw text is shorter. -/
theorem toRawText_again (settings : Settings) (source : Text) :
    ∃ html, highlight? settings source = some html ∧
      toRawText html = Text.trim Text.isBlank source ∧
      (toRawText (toRawText html) = toRawText html ↔ Unmarked source) ∧
      (¬ Unmarked source →
        (toRawText (toRawText html)).byteLength < (toRawText html).byteLength) := by
  refine ⟨highlight settings source, highlight?_eq settings source,
    toRawText_highlight_eq settings source, ?_, ?_⟩
  · rw [toRawText_highlight_eq, toRawText_eq_self_iff, settled_trim_iff]
  · rw [toRawText_highlight_eq, ← settled_trim_iff]
    intro hsettled
    rcases toRawText_cases (Text.trim Text.isBlank source) with ⟨h, -⟩ | ⟨-, hshorter⟩
    · exact absurd h hsettled
    · exact hshorter

/-- A source that is a reference comes back as it is, and is replaced by a second step. -/
theorem not_toRawText_again_reference :
    highlight? {} "&lt;".toList = some "&amp;lt;".toList ∧
      toRawText "&amp;lt;".toList = "&lt;".toList ∧
      toRawText "&lt;".toList = "<".toList ∧
      ¬ ∀ (settings : Settings) (source : Text) (html : Text),
        highlight? settings source = some html →
          toRawText (toRawText html) = toRawText html := by
  have hhtml : highlight? {} "&lt;".toList = some "&amp;lt;".toList := by decide +kernel
  have hraw : toRawText "&amp;lt;".toList = "&lt;".toList := by decide +kernel
  have hagain : toRawText "&lt;".toList = "<".toList := by decide +kernel
  refine ⟨hhtml, hraw, hagain, fun h => ?_⟩
  have hstable := h {} "&lt;".toList "&amp;lt;".toList hhtml
  rw [hraw, hagain] at hstable
  exact absurd hstable (by decide)

end Markup

end SourceMarkup
