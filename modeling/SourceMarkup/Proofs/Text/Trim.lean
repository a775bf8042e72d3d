import SourceMarkup.Proofs.Lexeme.Basic
import SourceMarkup.Text.Basic

/-!
# Trimmed texts

Trimming takes away what is trimmed at both ends and nothing else. So a text that neither
begins nor ends with a character that is trimmed lies in a trimmed text where it lies in
the text before.
-/

namespace SourceMarkup

namespace Text

variable {p : Char → Bool}

@[simp] theorem trimEnd_nil (p : Char → Bool) : trimEnd p [] = [] := rfl

theorem trimEnd_of_all {t : Text} (h : t.all p) : trimEnd p t = [] := by
  have hall : ∀ c ∈ t.reverse, p c = true := by
    intro c hc
    exact List.all_eq_true.1 h c (List.mem_reverse.1 hc)
  rw [trimEnd, List.dropWhile_eq_nil_iff.2 hall, List.reverse_nil]

theorem trimEnd_cons {c : Char} {cs : Text} (h : (c :: cs).all p = false) :
    trimEnd p (c :: cs) = c :: trimEnd p cs := by
  rw [trimEnd, List.reverse_cons, List.dropWhile_append, trimEnd]
  cases hrest : cs.reverse.dropWhile p with
  | nil =>
      have hcs : ∀ d ∈ cs, p d = true := by
        intro d hd
        exact List.dropWhile_eq_nil_iff.1 hrest d (List.mem_reverse.2 hd)
      have hc : p c = false := by
        rw [List.all_cons, List.all_eq_true.2 hcs, Bool.and_true] at h
        exact h
      simp [hc]
  | cons d ds => simp

theorem trimEnd_append_singleton {c : Char} (hc : p c) (t : Text) :
    trimEnd p (t ++ [c]) = trimEnd p t := by
  rw [trimEnd, List.reverse_append, List.reverse_singleton, List.singleton_append,
    List.dropWhile_cons_of_pos hc, trimEnd]

/-- A character at the end that is trimmed may as well be left out. -/
theorem trim_append_singleton {c : Char} (hc : p c) (t : Text) :
    trim p (t ++ [c]) = trim p t := by
  rw [trim, trim, trimStart, trimStart, List.dropWhile_append]
  cases hrest : t.dropWhile p with
  | nil => simp [hc]
  | cons d ds => exact trimEnd_append_singleton hc (d :: ds)

theorem trimEnd_append (p : Char → Bool) (t : Text) :
    trimEnd p t ++ (t.reverse.takeWhile p).reverse = t := by
  rw [trimEnd, ← List.reverse_append, List.takeWhile_append_dropWhile, List.reverse_reverse]

/-- What is trimmed at the ends, and what is left between them. -/
theorem exists_trim (p : Char → Bool) (t : Text) :
    ∃ lead trail, t = lead ++ (trim p t ++ trail) ∧ (∀ c ∈ lead, p c = true) ∧
      ∀ c ∈ trail, p c = true := by
  refine ⟨t.takeWhile p, ((trimStart p t).reverse.takeWhile p).reverse, ?_, ?_, ?_⟩
  · rw [trim, trimEnd_append, trimStart, List.takeWhile_append_dropWhile]
  · exact fun c hc => List.mem_takeWhile_imp hc
  · exact fun c hc => List.mem_takeWhile_imp (List.mem_reverse.1 hc)

theorem getLast?_trim (p : Char → Bool) (t : Text) : (trim p t).getLast?.any p = false := by
  rw [trim, trimEnd, List.getLast?_reverse, Lexeme.head?_any_dropWhile]

theorem head?_trim (p : Char → Bool) (t : Text) : (trim p t).head?.any p = false := by
  have hhead := Lexeme.head?_any_dropWhile p t
  rw [← trimStart] at hhead
  rw [trim]
  cases hrest : trimStart p t with
  | nil => rfl
  | cons c cs =>
      rw [hrest, List.head?_cons, Option.any_some] at hhead
      rw [trimEnd_cons (by rw [List.all_cons, hhead, Bool.false_and]), List.head?_cons,
        Option.any_some, hhead]

/-! ### Texts in a trimmed text -/

/-- A text is not found any earlier behind characters that it does not begin with. -/
theorem infix_append_iff_right {w lead : Text} (hhead : w.head?.any p = false)
    (hlead : ∀ c ∈ lead, p c = true) (t : Text) : w <:+: lead ++ t ↔ w <:+: t := by
  induction lead with
  | nil => rfl
  | cons c cs ih =>
      obtain ⟨hc, hcs⟩ := List.forall_mem_cons.1 hlead
      rw [List.cons_append, List.infix_cons_iff, ih hcs, or_iff_right_iff_imp]
      intro hstarts
      cases w with
      | nil => exact List.nil_infix
      | cons d ds =>
          obtain ⟨rfl, -⟩ := List.cons_prefix_cons.1 hstarts
          rw [List.head?_cons, Option.any_some, hc] at hhead
          contradiction

theorem infix_append_iff_left {w trail : Text} (hlast : w.getLast?.any p = false)
    (htrail : ∀ c ∈ trail, p c = true) (t : Text) : w <:+: t ++ trail ↔ w <:+: t := by
  have hhead : w.reverse.head?.any p = false := by rw [List.head?_reverse, hlast]
  have hlead : ∀ c ∈ trail.reverse, p c = true :=
    fun c hc => htrail c (List.mem_reverse.1 hc)
  rw [← List.reverse_infix, List.reverse_append, infix_append_iff_right hhead hlead,
    List.reverse_infix]

/-- Trimming keeps every text that has no character to trim at its ends. -/
theorem infix_trim_iff {w : Text} (hhead : w.head?.any p = false)
    (hlast : w.getLast?.any p = false) (t : Text) : w <:+: trim p t ↔ w <:+: t := by
  obtain ⟨lead, trail, ht, hlead, htrail⟩ := exists_trim p t
  have hinfix := infix_append_iff_right hhead hlead (trim p t ++ trail)
  rw [← ht, infix_append_iff_left hlast htrail] at hinfix
  exact hinfix.symm

end Text

end SourceMarkup
