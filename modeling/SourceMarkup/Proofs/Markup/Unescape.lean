import SourceMarkup.Proofs.Lexeme.Basic
import SourceMarkup.Proofs.Markup.Decoding
import SourceMarkup.Proofs.Markup.Escape

/-!
# References of escaped text, replaced once

Raw text replaces the three references of escaped text one after another, each all over
the text. `replaceOnce` replaces several texts in a single pass, which never looks at
what it has written. Both come to the same for any markup, as long as no character that
is written belongs to a reference that is still to be replaced: `&lt;` and `&gt;` may
come in any order, and `&amp;` comes last.

The three rules undo escaping, and so does the decoder of all references.
-/

namespace SourceMarkup

namespace Markup

open Lexeme Pattern

/-- The entry at the start of a text. -/
def entryAt? (entries : List (Text × Char)) (t : Text) : Option (Text × Char) :=
  entries.find? fun entry => entry.1.isPrefixOf t

/-- A text with each of several fixed texts in it replaced by a character, in one pass
from left to right. -/
def replaceOnce (entries : List (Text × Char)) : Text → Text
  | [] => []
  | c :: cs =>
      match entryAt? entries (c :: cs) with
      | some (w, d) => d :: replaceOnce entries (cs.drop (w.length - 1))
      | none => c :: replaceOnce entries cs
  termination_by t => t.length
  decreasing_by all_goals simp only [List.length_cons, List.length_drop]; omega

/-- The references of escaped text, with the characters that they stand for. -/
def references : List (Text × Char) :=
  [("&lt;".toList, '<'), ("&gt;".toList, '>'), ("&amp;".toList, '&')]

def tagRule : ReplacementRule :=
  rawTextRules.get ⟨0, by decide⟩

def ltRule : ReplacementRule :=
  rawTextRules.get ⟨1, by decide⟩

def gtRule : ReplacementRule :=
  rawTextRules.get ⟨2, by decide⟩

def ampRule : ReplacementRule :=
  rawTextRules.get ⟨3, by decide⟩

/-- A part of a text that is replaced by a character, where `after` follows it: a whole
entry, or a single character at which no entry begins. -/
def IsPiece (entries : List (Text × Char)) (piece : Text × Char) (after : Text) : Prop :=
  piece ∈ entries ∨
    piece.1 = [piece.2] ∧ ∀ entry ∈ entries, ¬ entry.1 <+: piece.1 ++ after

/-- A text that begins with an ampersand and has no other. -/
def OpensOnce (w : Text) : Prop :=
  ∃ body, w = '&' :: body ∧ '&' ∉ body

variable {entries : List (Text × Char)} {w t : Text} {c d : Char} {cs : Text}

/-! ### One pass -/

theorem exists_of_entryAt? (h : entryAt? entries t = some (w, d)) :
    (w, d) ∈ entries ∧ ∃ rest, t = w ++ rest := by
  have hstarts : w.isPrefixOf t = true := by simpa using List.find?_some h
  obtain ⟨rest, hrest⟩ := List.isPrefixOf_iff_prefix.1 hstarts
  exact ⟨List.mem_of_find?_eq_some h, rest, hrest.symm⟩

theorem entryAt?_eq_none_iff :
    entryAt? entries t = none ↔ ∀ entry ∈ entries, ¬ entry.1 <+: t := by
  simp [entryAt?]

theorem replaceOnce_nil (entries : List (Text × Char)) : replaceOnce entries [] = [] := by
  rw [replaceOnce]

theorem replaceOnce_cons (h : entryAt? entries (c :: cs) = none) :
    replaceOnce entries (c :: cs) = c :: replaceOnce entries cs := by
  rw [replaceOnce, h]

theorem replaceOnce_of_nil (t : Text) : replaceOnce [] t = t := by
  induction t with
  | nil => exact replaceOnce_nil []
  | cons c cs ih => rw [replaceOnce_cons rfl, ih]

/-- A pass depends on what it finds at the start of texts only. -/
theorem replaceOnce_congr {others : List (Text × Char)}
    (h : ∀ t, entryAt? entries t = entryAt? others t) (t : Text) :
    replaceOnce entries t = replaceOnce others t := by
  fun_induction replaceOnce entries t with
  | case1 => rw [replaceOnce_nil]
  | case2 c cs w d hfind ih => rw [replaceOnce, ← h, hfind, ih]
  | case3 c cs hfind ih => rw [replaceOnce_cons (h (c :: cs) ▸ hfind), ih]

/-- Every piece of a text is replaced by one character, and by nothing else. -/
theorem exists_pieces (hentries : ∀ entry ∈ entries, entry.1 ≠ []) (t : Text) :
    ∃ pieces : List (Text × Char), pieces.flatMap Prod.fst = t ∧
      pieces.map Prod.snd = replaceOnce entries t ∧
      Each Prod.fst (IsPiece entries) [] pieces := by
  fun_induction replaceOnce entries t with
  | case1 => exact ⟨[], rfl, rfl, trivial⟩
  | case2 c cs w d hfind ih =>
      obtain ⟨hentry, rest, hrest⟩ := exists_of_entryAt? hfind
      obtain ⟨pieces, htext, hchars, heach⟩ := ih
      refine ⟨(w, d) :: pieces, ?_, by rw [List.map_cons, hchars], .inl hentry, heach⟩
      cases w with
      | nil => exact absurd rfl (hentries _ hentry)
      | cons e es =>
          obtain ⟨rfl, rfl⟩ := List.cons.inj hrest
          rw [List.flatMap_cons, htext]
          simp
  | case3 c cs hfind ih =>
      obtain ⟨pieces, htext, hchars, heach⟩ := ih
      refine ⟨([c], c) :: pieces, by rw [List.flatMap_cons, htext]; rfl,
        by rw [List.map_cons, hchars], .inr ⟨rfl, ?_⟩, heach⟩
      rw [htext, List.append_nil]
      exact entryAt?_eq_none_iff.1 hfind

/-! ### One rule after a pass -/

theorem OpensOnce.ne_nil (h : OpensOnce w) : w ≠ [] := by
  obtain ⟨body, rfl, -⟩ := h
  exact List.cons_ne_nil _ _

/-- Where there is no ampersand, no entry is found. -/
theorem replaceOnce_append (hentries : ∀ entry ∈ entries, OpensOnce entry.1) {u : Text}
    (hu : '&' ∉ u) (t : Text) :
    replaceOnce entries (u ++ t) = u ++ replaceOnce entries t := by
  induction u with
  | nil => rfl
  | cons c cs ih =>
      have hnone : entryAt? entries (c :: (cs ++ t)) = none := by
        rw [entryAt?_eq_none_iff]
        intro entry hentry hstarts
        obtain ⟨body, hbody, -⟩ := hentries entry hentry
        rw [hbody] at hstarts
        exact hu ((List.cons_prefix_cons.1 hstarts).1 ▸ List.mem_cons_self)
      rw [List.cons_append, replaceOnce_cons hnone,
        ih fun h => hu (List.mem_cons_of_mem c h), List.cons_append]

/-- A pass does not write the beginning of a text that has neither an ampersand nor any
of the characters that the pass writes. -/
theorem prefix_replaceOnce_iff {u : Text}
    (hentries : ∀ entry ∈ entries, OpensOnce entry.1 ∧ entry.2 ∉ u) (hu : '&' ∉ u)
    (t : Text) : u <+: replaceOnce entries t ↔ u <+: t := by
  induction u generalizing t with
  | nil => simp
  | cons e es ih =>
      cases t with
      | nil => rw [replaceOnce_nil]
      | cons c cs =>
          cases hfind : entryAt? entries (c :: cs) with
          | none =>
              rw [replaceOnce_cons hfind, List.cons_prefix_cons, List.cons_prefix_cons,
                ih (fun entry hentry => ⟨(hentries entry hentry).1, fun h =>
                  (hentries entry hentry).2 (List.mem_cons_of_mem e h)⟩)
                  fun h => hu (List.mem_cons_of_mem e h)]
          | some entry =>
              obtain ⟨w, d⟩ := entry
              obtain ⟨hentry, rest, hrest⟩ := exists_of_entryAt? hfind
              obtain ⟨⟨body, hbody, -⟩, hd⟩ := hentries _ hentry
              have hamp : c = '&' := by
                rw [show w = '&' :: body from hbody] at hrest
                exact (List.cons.inj hrest).1
              rw [replaceOnce, hfind, List.cons_prefix_cons, List.cons_prefix_cons]
              constructor
              · rintro ⟨rfl, -⟩
                exact absurd List.mem_cons_self hd
              · rintro ⟨rfl, -⟩
                exact absurd (hamp ▸ List.mem_cons_self) hu

theorem entryAt?_append_singleton (entries : List (Text × Char)) (w : Text) (d : Char)
    (t : Text) :
    entryAt? (entries ++ [(w, d)]) t =
      (entryAt? entries t).or (if w.isPrefixOf t then some (w, d) else none) := by
  rw [entryAt?, List.find?_append, ← entryAt?, List.find?_singleton]

/-- A character that does not belong to a text is no beginning of it. -/
theorem replaceLiteral_skip (hw : OpensOnce w) (hc : c ∉ w) (d : Char) (t : Text) :
    replaceLiteral w [d] (c :: t) = c :: replaceLiteral w [d] t := by
  obtain ⟨body, rfl, -⟩ := hw
  refine replaceLiteral_cons ?_ [d]
  rw [List.isPrefixOf_cons_cons, beq_false_of_ne, Bool.false_and]
  rintro rfl
  exact hc List.mem_cons_self

/-- Replacing one more text after a pass is a pass that replaces it too, if no character
that the first pass writes belongs to it. -/
theorem replaceLiteral_replaceOnce
    (hentries : ∀ entry ∈ entries, OpensOnce entry.1 ∧ entry.2 ∉ w) (hw : OpensOnce w)
    (d : Char) (t : Text) :
    replaceLiteral w [d] (replaceOnce entries t) =
      replaceOnce (entries ++ [(w, d)]) t := by
  have hopens : ∀ entry ∈ entries, OpensOnce entry.1 := fun entry h => (hentries entry h).1
  obtain ⟨body, hbody, hamp⟩ := id hw
  fun_induction replaceOnce (entries ++ [(w, d)]) t with
  | case1 => rw [replaceOnce_nil]; exact replaceWith_nil
  | case2 c cs v e hfind ih =>
      rw [entryAt?_append_singleton] at hfind
      cases hfirst : entryAt? entries (c :: cs) with
      | some entry =>
          -- The first pass has replaced an entry by a character that `w` does not hold.
          rw [hfirst, Option.some_or, Option.some.injEq] at hfind
          subst hfind
          have he : e ∉ w := (hentries _ (exists_of_entryAt? hfirst).1).2
          rw [replaceOnce, hfirst, replaceLiteral_skip hw he, ih]
      | none =>
          -- The first pass has kept all of `w`.
          rw [hfirst, Option.none_or, Option.ite_none_right_eq_some] at hfind
          obtain ⟨hstarts, heq⟩ := hfind
          obtain ⟨rfl, rfl⟩ := Prod.mk.inj (Option.some.inj heq)
          obtain ⟨rest, hrest⟩ := List.isPrefixOf_iff_prefix.1 hstarts
          subst hbody
          rw [List.cons_append] at hrest
          obtain ⟨rfl, rfl⟩ := List.cons.inj hrest
          rw [replaceOnce_cons hfirst, replaceOnce_append hopens hamp, ← List.cons_append,
            replaceLiteral_self (List.cons_ne_nil _ _)]
          simpa using ih
  | case3 c cs hfind ih =>
      rw [entryAt?_append_singleton, Option.or_eq_none_iff] at hfind
      obtain ⟨hfirst, hnone⟩ := hfind
      have hstarts : ¬ w <+: c :: cs := by
        rw [← List.isPrefixOf_iff_prefix]
        simpa using hnone
      rw [replaceOnce_cons hfirst, replaceLiteral_cons, ih]
      rw [Bool.eq_false_iff, ne_eq, List.isPrefixOf_iff_prefix]
      subst hbody
      rw [List.cons_prefix_cons] at hstarts ⊢
      rw [prefix_replaceOnce_iff (fun entry h => ⟨hopens entry h, fun he =>
        (hentries entry h).2 (List.mem_cons_of_mem _ he)⟩) hamp]
      exact hstarts

/-- Several texts replaced one after another are replaced in one pass, if no character
that is written belongs to a text that is replaced later. -/
theorem foldl_replaceLiteral (hopens : ∀ entry ∈ entries, OpensOnce entry.1)
    (hwritten : entries.Pairwise fun entry later => entry.2 ∉ later.1) (t : Text) :
    entries.foldl (fun t entry => replaceLiteral entry.1 [entry.2] t) t =
      replaceOnce entries t := by
  induction entries using List.reverseRecOn with
  | nil => exact (replaceOnce_of_nil t).symm
  | append_singleton entries last ih =>
      obtain ⟨hpairs, -, hlast⟩ := List.pairwise_append.1 hwritten
      have hentries : ∀ entry ∈ entries, OpensOnce entry.1 ∧ entry.2 ∉ last.1 :=
        fun entry h => ⟨hopens entry (List.mem_append_left _ h),
          hlast entry h last List.mem_cons_self⟩
      rw [List.foldl_append, ih (fun entry h => (hentries entry h).1) hpairs,
        List.foldl_cons, List.foldl_nil]
      exact replaceLiteral_replaceOnce hentries
        (hopens last (List.mem_append_right _ List.mem_cons_self)) last.2 t

/-! ### The rules of raw text -/

theorem apply_tagRule (m : Text) : tagRule.apply m = stripTags m :=
  apply_spanTag m

theorem apply_ltRule (m : Text) :
    ltRule.apply m = replaceLiteral "&lt;".toList ['<'] m :=
  apply_literal (by decide) _ rfl ['<'] m

theorem apply_gtRule (m : Text) :
    gtRule.apply m = replaceLiteral "&gt;".toList ['>'] m :=
  apply_literal (by decide) _ rfl ['>'] m

theorem apply_ampRule (m : Text) :
    ampRule.apply m = replaceLiteral "&amp;".toList ['&'] m :=
  apply_literal (by decide) _ rfl ['&'] m

def referencesSwapped : List (Text × Char) :=
  [("&gt;".toList, '>'), ("&lt;".toList, '<'), ("&amp;".toList, '&')]

theorem opensOnce_of_mem_references : ∀ entry ∈ references, OpensOnce entry.1 := by
  simp only [references, List.forall_mem_cons]
  exact ⟨⟨_, rfl, by decide⟩, ⟨_, rfl, by decide⟩, ⟨_, rfl, by decide⟩, by simp⟩

theorem unescape_eq_replaceOnce (m : Text) : unescape m = replaceOnce references m :=
  foldl_replaceLiteral opensOnce_of_mem_references (by decide) m

theorem applyAll_lt_gt_amp (m : Text) :
    ReplacementRule.applyAll [ltRule, gtRule, ampRule] m = unescape m := by
  rw [ReplacementRule.applyAll, List.foldl_cons, List.foldl_cons, List.foldl_cons,
    List.foldl_nil, apply_ltRule, apply_gtRule, apply_ampRule, unescape]

/-- No text begins with two references. -/
theorem entryAt?_referencesSwapped (t : Text) :
    entryAt? referencesSwapped t = entryAt? references t := by
  have hboth : ¬ ("&lt;".toList.isPrefixOf t = true ∧ "&gt;".toList.isPrefixOf t = true) := by
    rw [List.isPrefixOf_iff_prefix, List.isPrefixOf_iff_prefix]
    rintro ⟨hlt, hgt⟩
    exact absurd (List.prefix_of_prefix_length_le hlt hgt (by decide)) (by decide)
  simp only [entryAt?, references, referencesSwapped, List.find?_cons]
  cases hlt : "&lt;".toList.isPrefixOf t with
  | false => rfl
  | true =>
      cases hgt : "&gt;".toList.isPrefixOf t with
      | false => rfl
      | true => exact absurd ⟨hlt, hgt⟩ hboth

theorem applyAll_gt_lt_amp (m : Text) :
    ReplacementRule.applyAll [gtRule, ltRule, ampRule] m = replaceOnce references m := by
  have hopens : ∀ entry ∈ referencesSwapped, OpensOnce entry.1 := fun entry hentry =>
    opensOnce_of_mem_references entry ((List.Perm.swap _ _ _).mem_iff.1 hentry)
  rw [← replaceOnce_congr entryAt?_referencesSwapped,
    ← foldl_replaceLiteral hopens (by decide), ReplacementRule.applyAll, List.foldl_cons,
    List.foldl_cons, List.foldl_cons, List.foldl_nil, apply_gtRule, apply_ltRule,
    apply_ampRule]
  rfl

/-- The rules that replace references come to one pass over the markup without its tags,
in which each reference gives one character that is not looked at again. The first two
of them may change places. -/
theorem rawText_replaces_once (m : Text) :
    ReplacementRule.applyAll [ltRule, gtRule, ampRule] m = replaceOnce references m ∧
      ReplacementRule.applyAll [gtRule, ltRule, ampRule] m = replaceOnce references m ∧
      toRawText m = Text.trim Text.isBlank (replaceOnce references (tagRule.apply m)) ∧
      ReplacementRule.applyAll
        (tagRule :: gtRule :: ltRule :: ampRule :: rawTextRules.drop 4) m = toRawText m ∧
      ∃ pieces : List (Text × Char), pieces.flatMap Prod.fst = tagRule.apply m ∧
        Each Prod.fst (IsPiece references) [] pieces ∧
        toRawText m = Text.trim Text.isBlank (pieces.map Prod.snd) := by
  have hraw : toRawText m =
      Text.trim Text.isBlank (replaceOnce references (tagRule.apply m)) := by
    rw [toRawText_eq, unescape_eq_replaceOnce, apply_tagRule]
  refine ⟨?_, applyAll_gt_lt_amp m, hraw, ?_, ?_⟩
  · rw [applyAll_lt_gt_amp, unescape_eq_replaceOnce]
  · -- Both orders leave the same text to the rules that trim it.
    have hsplit : ∀ rules : List ReplacementRule,
        ReplacementRule.applyAll (tagRule :: (rules ++ rawTextRules.drop 4)) m =
          ReplacementRule.applyAll (rawTextRules.drop 4)
            (ReplacementRule.applyAll rules (tagRule.apply m)) := by
      intro rules
      rw [ReplacementRule.applyAll, List.foldl_cons, List.foldl_append]
      rfl
    have hswapped := hsplit [gtRule, ltRule, ampRule]
    rw [applyAll_gt_lt_amp, ← unescape_eq_replaceOnce, ← applyAll_lt_gt_amp,
      ← hsplit] at hswapped
    exact hswapped
  · obtain ⟨pieces, htext, hchars, heach⟩ := exists_pieces
      (fun entry h => (opensOnce_of_mem_references entry h).ne_nil) (tagRule.apply m)
    exact ⟨pieces, htext, heach, by rw [hraw, hchars]⟩

/-! ### Escaped text -/

/-- Each character of a text is written as a piece that the decoder knows. -/
theorem piece_escapeChar (c : Char) (tail : Text) :
    Reference.Piece tail (escapeChar c) c := by
  have hreference : ∀ (body : Text) {c : Char}, ';' ∉ body →
      body.length ≤ Reference.maxBody → (body, c) ∈ Reference.names →
      Reference.Piece tail ('&' :: body ++ [';']) c :=
    fun body _ hsemicolon hlength hname =>
      .reference (.name ⟨hsemicolon, hlength, tail, rfl⟩ hname)
  by_cases hamp : c = '&'
  · subst hamp
    exact hreference "amp".toList (by decide) (by decide) (by decide)
  by_cases hlt : c = '<'
  · subst hlt
    exact hreference "lt".toList (by decide) (by decide) (by decide)
  by_cases hgt : c = '>'
  · subst hgt
    exact hreference "gt".toList (by decide) (by decide) (by decide)
  rw [escapeChar_of_ne hamp hlt hgt]
  exact .other hamp

theorem replaced_escape (t : Text) : Reference.Replaced (escape t) t := by
  induction t with
  | nil => exact .nil
  | cons c cs ih => exact .cons (piece_escapeChar c (escape cs)) ih

/-- Both decoders undo escaping, whatever the text holds. -/
theorem decode_escape (t : Text) :
    Reference.decode (escape t) = .ok t ∧
      ReplacementRule.applyAll [ltRule, gtRule, ampRule] (escape t) = t := by
  refine ⟨Reference.reads_decodeFrom.of_row (replaced_escape t) 0, ?_⟩
  rw [applyAll_lt_gt_amp, unescape_escape]

end Markup

end SourceMarkup
