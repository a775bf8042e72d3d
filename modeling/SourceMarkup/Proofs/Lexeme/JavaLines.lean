import SourceMarkup.Proofs.Lexeme.JavaMeaning

/-!
# Literals of Java and the ends of lines

A literal in quotes passes a backslash together with the character after it, so it goes on
behind a new line that is escaped, and behind no other. Where it is not closed, it ends
before a new line or at the end of the source. What follows a construct is cut as if it
stood alone.
-/

namespace SourceMarkup

namespace Java

open Lexeme

def backslashesAtEnd (t : Text) : Nat :=
  runLength (· == '\\') t.reverse

/-- A text ends with a backslash that is not escaped itself. -/
def EndsInEscape (t : Text) : Prop :=
  backslashesAtEnd t % 2 = 1

instance (t : Text) : Decidable (EndsInEscape t) :=
  inferInstanceAs (Decidable (backslashesAtEnd t % 2 = 1))

/-- A literal that ends with a quote other than its opening one, and not an escaped one. -/
def Closed (text : Text) : Prop :=
  ∃ quote body, text = quote :: (body ++ [quote]) ∧ ¬ EndsInEscape body

variable {before part text after t : Text} {quote c : Char} {ends : List Text}

/-! ### Escapes -/

theorem backslashesAtEnd_append (u t : Text) :
    backslashesAtEnd (u ++ t) =
      if backslashesAtEnd t = t.length then t.length + backslashesAtEnd u
      else backslashesAtEnd t := by
  unfold backslashesAtEnd runLength
  rw [List.reverse_append, List.takeWhile_append, List.length_reverse]
  split
  · rw [List.length_append, List.length_reverse]
  · rfl

theorem endsInEscape_cons_iff (hc : c ≠ '\\') (t : Text) :
    EndsInEscape (c :: t) ↔ EndsInEscape t := by
  have hsingle : backslashesAtEnd [c] = 0 := by simp [backslashesAtEnd, runLength, hc]
  rw [EndsInEscape, EndsInEscape, ← List.singleton_append, backslashesAtEnd_append, hsingle]
  split <;> omega

/-- A backslash and the character after it do not change what is escaped behind them. -/
theorem endsInEscape_escape_iff (c : Char) (t : Text) :
    EndsInEscape ('\\' :: c :: t) ↔ EndsInEscape t := by
  have hpair : backslashesAtEnd ['\\', c] % 2 = 0 := by
    by_cases hc : c = '\\'
    · subst hc
      rfl
    · simp [backslashesAtEnd, runLength, hc]
  have hsplit : '\\' :: c :: t = ['\\', c] ++ t := rfl
  rw [EndsInEscape, EndsInEscape, hsplit, backslashesAtEnd_append]
  split <;> omega

/-- A part of a literal that ends with a new line passes an escaped new line only. -/
theorem Passes.endsInEscape (hends : ['\n'] ∈ ends) (h : Passes ends part after)
    {front back : Text} (hsplit : part = front ++ '\n' :: back) : EndsInEscape front := by
  induction h generalizing front with
  | nil after => simp at hsplit
  | @escape c part after h ih =>
      rcases front with _ | ⟨d, _ | ⟨e, front⟩⟩
      · exact absurd (List.cons.inj hsplit).1 (by decide)
      · obtain ⟨rfl, -⟩ := List.cons.inj hsplit
        decide
      · obtain ⟨rfl, hrest⟩ := List.cons.inj hsplit
        obtain ⟨rfl, hpart⟩ := List.cons.inj hrest
        exact (endsInEscape_escape_iff c front).2 (ih hpart)
  | backslash =>
      rcases front with _ | ⟨d, front⟩
      · exact absurd (List.cons.inj hsplit).1 (by decide)
      · simp at hsplit
  | @plain c part after hc hend h ih =>
      rcases front with _ | ⟨d, front⟩
      · obtain ⟨rfl, -⟩ := List.cons.inj hsplit
        exact absurd ⟨part ++ after, rfl⟩ (hend _ hends)
      · obtain ⟨rfl, hpart⟩ := List.cons.inj hsplit
        exact (endsInEscape_cons_iff hc front).2 (ih hpart)

/-- A part of a literal that something follows does not end within an escape. -/
theorem Passes.not_endsInEscape (h : Passes ends part after) (hafter : after ≠ []) :
    ¬ EndsInEscape part := by
  induction h with
  | nil after => decide
  | @escape c part after h ih =>
      rw [endsInEscape_escape_iff]
      exact ih hafter
  | backslash => exact absurd rfl hafter
  | @plain c part after hc hend h ih =>
      rw [endsInEscape_cons_iff hc]
      exact ih hafter

/-- A new line in a literal is escaped. -/
theorem Quoted.endsInEscape (hline : quote ≠ '\n') (hslash : quote ≠ '\\')
    (h : Quoted quote text after) {front back : Text}
    (hsplit : text = front ++ '\n' :: back) : EndsInEscape front := by
  obtain ⟨part, close, rfl, hpart, hclose⟩ := h
  cases front with
  | nil => exact absurd (List.cons.inj hsplit).1 hline
  | cons d front =>
      obtain ⟨rfl, hrest⟩ := List.cons.inj hsplit
      rw [endsInEscape_cons_iff hslash]
      have hnone : '\n' ∉ close := by
        rcases hclose with rfl | ⟨rfl, -⟩
        · simpa using Ne.symm hline
        · exact List.not_mem_nil
      rcases List.append_eq_append_iff.1 hrest with ⟨u, -, hclose⟩ | ⟨u, hfront, hback⟩
      · exact absurd (hclose ▸ List.mem_append_right u List.mem_cons_self) hnone
      cases u with
      | nil =>
          have hmem : '\n' ∈ [] ++ close := hback ▸ List.mem_cons_self
          exact absurd hmem hnone
      | cons e u =>
          obtain ⟨rfl, -⟩ := List.cons.inj hback
          exact hpart.endsInEscape List.mem_cons_self hfront

/-- A literal is closed, or it ends with its line. -/
theorem Quoted.closed_or_endOfLine (h : Quoted quote text after) :
    Closed text ∨ EndOfLine after := by
  obtain ⟨part, close, rfl, hpart, rfl | ⟨-, hend⟩⟩ := h
  · exact .inl ⟨quote, part, rfl, hpart.not_endsInEscape (List.cons_ne_nil _ _)⟩
  · exact .inr hend

/-! ### What follows a construct -/

/-- Behind a lexeme that is no part of a javadoc comment, a source is cut as if the rest
of it stood alone. -/
theorem lexemes_after {front back : List Lexeme} {l : Lexeme} (hcomment : l.kind ≠ .javadoc)
    (htag : l.kind ≠ .javadocTag) (h : lexemes t = front ++ l :: back) :
    back = lexemes (source back) := by
  fun_induction constructs t generalizing front with
  | case1 => simp [lexemes, constructs] at h
  | case2 c cs kind n hconstruct ih =>
      rcases lexemes_cons_eq_append hconstruct h with
        ⟨later, -, hlater⟩ | (hkind | hkind) | ⟨-, -, rfl⟩
      · exact ih hlater
      · exact absurd hkind hcomment
      · exact absurd hkind htag
      · exact congrArg lexemes (source_lexemes _).symm

theorem lexemes_newline (next : Text) :
    lexemes ('\n' :: next) = ⟨.plain, ['\n']⟩ :: lexemes next := by
  have hconstruct : construct '\n' next = (.plain, 0) := rfl
  rw [lexemes_cons_of_ne hconstruct (by decide)]
  rfl

end Java

end SourceMarkup
