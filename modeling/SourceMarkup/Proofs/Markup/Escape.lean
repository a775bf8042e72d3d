import SourceMarkup.Markup.Escape
import SourceMarkup.Proofs.Markup.RawText

/-!
# Escaped text is text

Escaped text holds no angle bracket, and its ampersands begin references only. So
no tag is found in it, and the three rules that replace references give the text
back. Each of them replaces the references of one character; what is left
of the escaped text then is escaped in fewer characters.
-/

namespace SourceMarkup

namespace Markup

open Pattern

/-- What follows the ampersand of a reference in escaped text. -/
def referenceTails : List Text :=
  ["amp;".toList, "lt;".toList, "gt;".toList]

/-- A text that cannot be read as markup: it holds no angle bracket, and no
ampersand that does not begin a reference. -/
structure IsEscaped (t : Text) : Prop where
  no_opening : '<' ∉ t
  no_closing : '>' ∉ t
  references : ∀ rest, '&' :: rest <:+ t → ∃ tail ∈ referenceTails, tail <+: rest

theorem escapeChar_of_ne {c : Char} (hamp : c ≠ '&') (hlt : c ≠ '<') (hgt : c ≠ '>') :
    escapeChar c = [c] := by
  rw [escapeChar, if_neg hamp, if_neg hlt, if_neg hgt]

theorem isEscaped_nil : IsEscaped [] := by
  refine ⟨List.not_mem_nil, List.not_mem_nil, fun rest hrest => ?_⟩
  exact absurd (List.suffix_nil.1 hrest) (List.cons_ne_nil _ _)

theorem IsEscaped.append {u t : Text} (hu : ∀ c ∈ u, c ≠ '&' ∧ c ≠ '<' ∧ c ≠ '>')
    (ht : IsEscaped t) : IsEscaped (u ++ t) := by
  induction u with
  | nil => exact ht
  | cons c cs ih =>
      obtain ⟨hamp, hlt, hgt⟩ := hu c List.mem_cons_self
      have hcs := ih fun d hd => hu d (List.mem_cons_of_mem c hd)
      constructor
      · simp [Ne.symm hlt, hcs.no_opening]
      · simp [Ne.symm hgt, hcs.no_closing]
      · intro rest hrest
        rcases List.suffix_cons_iff.1 hrest with heq | hrest
        · exact absurd (List.cons.inj heq).1.symm hamp
        · exact hcs.references rest hrest

theorem IsEscaped.reference (tail : Text) {t : Text} (htail : tail ∈ referenceTails)
    (ht : IsEscaped t) : IsEscaped ('&' :: (tail ++ t)) := by
  have hplain : referenceTails.all (fun tail =>
      tail.all fun c => c != '&' && (c != '<' && c != '>')) = true := by decide
  have hrest : IsEscaped (tail ++ t) := by
    refine ht.append fun c hc => ?_
    have hchar := List.all_eq_true.1 (List.all_eq_true.1 hplain tail htail) c hc
    simpa using hchar
  constructor
  · simp [hrest.no_opening]
  · simp [hrest.no_closing]
  · intro rest hsuffix
    rcases List.suffix_cons_iff.1 hsuffix with heq | hsuffix
    · rw [(List.cons.inj heq).2]
      exact ⟨tail, htail, List.prefix_append tail t⟩
    · exact hrest.references rest hsuffix

theorem isEscaped_escape (t : Text) : IsEscaped (escape t) := by
  induction t with
  | nil => exact isEscaped_nil
  | cons c cs ih =>
      rw [escape_cons]
      by_cases hamp : c = '&'
      · subst hamp
        exact ih.reference "amp;".toList (by decide)
      by_cases hlt : c = '<'
      · subst hlt
        exact ih.reference "lt;".toList (by decide)
      by_cases hgt : c = '>'
      · subst hgt
        exact ih.reference "gt;".toList (by decide)
      rw [escapeChar_of_ne hamp hlt hgt]
      exact ih.append (by simp [hamp, hlt, hgt])

theorem escape_eq_nil_iff {t : Text} : escape t = [] ↔ t = [] := by
  constructor
  · intro h
    cases t with
    | nil => rfl
    | cons c cs =>
        rw [escape_cons, List.append_eq_nil_iff, escapeChar] at h
        split at h
        · exact absurd h.1 (by decide)
        split at h
        · exact absurd h.1 (by decide)
        split at h
        · exact absurd h.1 (by decide)
        · exact absurd h.1 (List.cons_ne_nil c [])
  · rintro rfl
    rfl

/-! ### Replacing references -/

theorem replaceLiteral_flatMap {w replacement : Text} {f g : Char → Text}
    (h : ∀ c t, replaceLiteral w replacement (f c ++ t) =
      g c ++ replaceLiteral w replacement t) (t : Text) :
    replaceLiteral w replacement (t.flatMap f) = t.flatMap g := by
  induction t with
  | nil => exact replaceWith_nil
  | cons c cs ih => rw [List.flatMap_cons, h, ih, List.flatMap_cons]

theorem replaceLiteral_self {w : Text} (hw : w ≠ []) (replacement t : Text) :
    replaceLiteral w replacement (w ++ t) =
      replacement ++ replaceLiteral w replacement t := by
  refine replaceWith_match hw ?_
  rw [Regex.literalLength?, if_pos]
  exact List.isPrefixOf_iff_prefix.2 (List.prefix_append w t)

theorem replaceLiteral_cons {c : Char} {w cs : Text} (h : w.isPrefixOf (c :: cs) = false)
    (replacement : Text) :
    replaceLiteral w replacement (c :: cs) = c :: replaceLiteral w replacement cs := by
  refine replaceWith_cons_none ?_
  rw [Regex.literalLength?, h]
  rfl

theorem replaceLiteral_append {c : Char} {w u : Text} (hu : c ∉ u)
    (replacement t : Text) :
    replaceLiteral (c :: w) replacement (u ++ t) =
      u ++ replaceLiteral (c :: w) replacement t := by
  induction u with
  | nil => rfl
  | cons d ds ih =>
      have hne : (c == d) = false := by
        refine beq_false_of_ne ?_
        rintro rfl
        exact hu List.mem_cons_self
      have hds : c ∉ ds := fun h => hu (List.mem_cons_of_mem d h)
      rw [List.cons_append, replaceLiteral_cons, ih hds, List.cons_append]
      rw [List.isPrefixOf_cons_cons, hne, Bool.false_and]

theorem replaceLiteral_other {c d e : Char} (hde : d ≠ e) {w u : Text}
    (hu : c ∉ e :: u) (replacement t : Text) :
    replaceLiteral (c :: d :: w) replacement (c :: e :: u ++ t) =
      c :: e :: u ++ replaceLiteral (c :: d :: w) replacement t := by
  have hprefix : (c :: d :: w).isPrefixOf (c :: (e :: u ++ t)) = false := by
    rw [List.cons_append, List.isPrefixOf_cons_cons, List.isPrefixOf_cons_cons,
      beq_false_of_ne hde, Bool.false_and, Bool.and_false]
  rw [List.cons_append, replaceLiteral_cons hprefix, replaceLiteral_append hu]
  rfl

def escapeAmpGt (c : Char) : Text :=
  if c = '<' then ['<'] else escapeChar c

def escapeAmp (c : Char) : Text :=
  if c = '&' then "&amp;".toList else [c]

theorem replaceLiteral_lt (t : Text) :
    replaceLiteral "&lt;".toList ['<'] (escape t) = t.flatMap escapeAmpGt := by
  refine replaceLiteral_flatMap (fun c t => ?_) t
  by_cases hamp : c = '&'
  · subst hamp
    exact replaceLiteral_other (by decide) (by decide) ['<'] t
  by_cases hlt : c = '<'
  · subst hlt
    exact replaceLiteral_self (by decide) ['<'] t
  by_cases hgt : c = '>'
  · subst hgt
    exact replaceLiteral_other (by decide) (by decide) ['<'] t
  rw [escapeAmpGt, if_neg hlt, escapeChar_of_ne hamp hlt hgt]
  have hnot : '&' ∉ [c] := by simpa using Ne.symm hamp
  exact replaceLiteral_append hnot ['<'] t

theorem replaceLiteral_gt (t : Text) :
    replaceLiteral "&gt;".toList ['>'] (t.flatMap escapeAmpGt) = t.flatMap escapeAmp := by
  refine replaceLiteral_flatMap (fun c t => ?_) t
  by_cases hamp : c = '&'
  · subst hamp
    exact replaceLiteral_other (by decide) (by decide) ['>'] t
  rw [escapeAmp, if_neg hamp]
  by_cases hlt : c = '<'
  · subst hlt
    exact replaceLiteral_append (by decide) ['>'] t
  by_cases hgt : c = '>'
  · subst hgt
    exact replaceLiteral_self (by decide) ['>'] t
  rw [escapeAmpGt, if_neg hlt, escapeChar_of_ne hamp hlt hgt]
  have hnot : '&' ∉ [c] := by simpa using Ne.symm hamp
  exact replaceLiteral_append hnot ['>'] t

theorem replaceLiteral_amp (t : Text) :
    replaceLiteral "&amp;".toList ['&'] (t.flatMap escapeAmp) = t := by
  have hflat : replaceLiteral "&amp;".toList ['&'] (t.flatMap escapeAmp) =
      t.flatMap fun c => [c] := by
    refine replaceLiteral_flatMap (fun c t => ?_) t
    by_cases hamp : c = '&'
    · subst hamp
      exact replaceLiteral_self (by decide) ['&'] t
    rw [escapeAmp, if_neg hamp]
    have hnot : '&' ∉ [c] := by simpa using Ne.symm hamp
    exact replaceLiteral_append hnot ['&'] t
  rw [hflat, List.flatMap_singleton']

/-- The three rules that replace references give an escaped text back. -/
theorem unescape_escape (t : Text) : unescape (escape t) = t := by
  rw [unescape, replaceLiteral_lt, replaceLiteral_gt, replaceLiteral_amp]

end Markup

end SourceMarkup
