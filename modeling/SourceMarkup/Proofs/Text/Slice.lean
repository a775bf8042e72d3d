import SourceMarkup.Text.Basic

/-!
# Slices of texts

A slice of a text between two boundaries of its characters is there, and it is the
text between them.
-/

namespace SourceMarkup

namespace Text

/-- A byte offset in a text at which no character is split. -/
def IsBoundary (t : Text) (n : Nat) : Prop :=
  ∃ before after, t = before ++ after ∧ n = before.byteLength

theorem byteLength_cons_pos (c : Char) (cs : Text) : 0 < byteLength (c :: cs) := by
  have hc := c.utf8Size_pos
  rw [byteLength_cons]
  omega

theorem byteLength_eq_zero_iff {t : Text} : t.byteLength = 0 ↔ t = [] := by
  cases t with
  | nil => simp
  | cons c cs =>
      have hpos := byteLength_cons_pos c cs
      simp only [reduceCtorEq, iff_false]
      omega

theorem byteLength_pos {t : Text} (h : t ≠ []) : 0 < t.byteLength :=
  Nat.pos_of_ne_zero fun h0 => h (byteLength_eq_zero_iff.1 h0)

theorem dropBytes?_zero (t : Text) : dropBytes? 0 t = some t := by
  cases t <;> rfl

theorem takeBytes?_zero (t : Text) : takeBytes? 0 t = some [] := by
  cases t <;> rfl

/-- A cut after a character is a cut in the text after that character. -/
theorem byteLength_cons_eq_succ (c : Char) (cs : Text) :
    ∃ n, byteLength (c :: cs) = n + 1 ∧ c.utf8Size ≤ n + 1 ∧
      n + 1 - c.utf8Size = byteLength cs := by
  have hc := c.utf8Size_pos
  refine ⟨c.utf8Size + byteLength cs - 1, ?_, ?_, ?_⟩
  · rw [byteLength_cons]
    omega
  · omega
  · omega

theorem dropBytes?_append (s t : Text) :
    dropBytes? (byteLength s) (s ++ t) = some t := by
  induction s with
  | nil => exact dropBytes?_zero t
  | cons c cs ih =>
      obtain ⟨n, hn, hle, hrest⟩ := byteLength_cons_eq_succ c cs
      rw [hn, List.cons_append, dropBytes?, if_pos hle, hrest, ih]

theorem takeBytes?_append (s t : Text) :
    takeBytes? (byteLength s) (s ++ t) = some s := by
  induction s with
  | nil => exact takeBytes?_zero t
  | cons c cs ih =>
      obtain ⟨n, hn, hle, hrest⟩ := byteLength_cons_eq_succ c cs
      rw [hn, List.cons_append, takeBytes?, if_pos hle, hrest, ih]
      rfl

theorem slice?_append (before t after : Text) :
    slice? (before ++ (t ++ after)) before.byteLength
      (before.byteLength + t.byteLength) = some t := by
  rw [slice?, if_pos (Nat.le_add_right _ _), dropBytes?_append, Option.bind_some,
    Nat.add_sub_cancel_left, takeBytes?_append]

/-- Between two boundaries that are not reversed there is a slice. -/
theorem exists_slice?_of_isBoundary {t : Text} {start stop : Nat} (hle : start ≤ stop)
    (hstart : t.IsBoundary start) (hstop : t.IsBoundary stop) :
    ∃ u, t.slice? start stop = some u := by
  obtain ⟨before, rest, rfl, rfl⟩ := hstart
  obtain ⟨through, after, hsplit, rfl⟩ := hstop
  rcases List.append_eq_append_iff.1 hsplit with ⟨u, rfl, rfl⟩ | ⟨u, rfl, rfl⟩
  · exact ⟨u, by rw [byteLength_append, slice?_append]⟩
  · -- The second boundary lies before the first, so nothing is between them.
    have hu : u = [] := by
      rw [byteLength_append] at hle
      exact byteLength_eq_zero_iff.1 (by omega)
    subst hu
    have hempty := slice?_append through [] rest
    rw [byteLength_nil, Nat.add_zero, List.nil_append] at hempty
    rw [List.append_nil]
    exact ⟨[], hempty⟩

end Text

end SourceMarkup
