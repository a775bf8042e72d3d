import SourceMarkup.Text.Basic

/-!
# Parts of texts

`splitOn` cuts a text at every separator. Taken together with the separators, the
parts are the text again, and so are the parts on both sides of one of them.
-/

namespace SourceMarkup

namespace Text

variable {c : Char}

theorem splitOn_ne_nil (c : Char) (t : Text) : splitOn c t ≠ [] := by
  cases t with
  | nil => simp [splitOn]
  | cons d ds =>
      unfold splitOn
      split
      · simp
      · split <;> simp

theorem splitOn_cons_self (c : Char) (t : Text) :
    splitOn c (c :: t) = [] :: splitOn c t := by
  obtain ⟨part, parts, hparts⟩ := List.exists_cons_of_ne_nil (splitOn_ne_nil c t)
  simp [splitOn, hparts]

theorem splitOn_cons_of_ne {d : Char} (h : d ≠ c) {t part : Text} {parts : List Text}
    (hparts : splitOn c t = part :: parts) :
    splitOn c (d :: t) = (d :: part) :: parts := by
  simp [splitOn, hparts, h]

/-- A separator ends the parts before it. -/
theorem splitOn_append (c : Char) (s t : Text) :
    splitOn c (s ++ c :: t) = splitOn c s ++ splitOn c t := by
  induction s with
  | nil => exact splitOn_cons_self c t
  | cons d s ih =>
      obtain ⟨part, parts, hparts⟩ := List.exists_cons_of_ne_nil (splitOn_ne_nil c s)
      rw [hparts, List.cons_append] at ih
      by_cases hd : d = c
      · subst hd
        rw [List.cons_append, splitOn_cons_self, splitOn_cons_self, ih, hparts]
        rfl
      · rw [List.cons_append, splitOn_cons_of_ne hd ih, splitOn_cons_of_ne hd hparts]
        rfl

/-- A text is its first part, with the others behind separators. -/
theorem eq_of_splitOn_eq_cons {t part : Text} {parts : List Text}
    (h : splitOn c t = part :: parts) : t = part ++ parts.flatMap (c :: ·) := by
  induction t generalizing part parts with
  | nil =>
      obtain ⟨rfl, rfl⟩ := List.cons.inj h
      rfl
  | cons d ds ih =>
      obtain ⟨first, others, hds⟩ := List.exists_cons_of_ne_nil (splitOn_ne_nil c ds)
      by_cases hd : d = c
      · subst hd
        rw [splitOn_cons_self, hds] at h
        obtain ⟨rfl, rfl⟩ := List.cons.inj h
        rw [List.nil_append, List.flatMap_cons, List.cons_append, ← ih hds]
      · rw [splitOn_cons_of_ne hd hds] at h
        obtain ⟨rfl, rfl⟩ := List.cons.inj h
        rw [List.cons_append, ← ih hds]

/-- Separators before parts are separators after the parts in front of them. -/
theorem flatMap_cons_append (parts : List Text) (c : Char) :
    parts.flatMap (c :: ·) ++ [c] = c :: parts.flatMap (· ++ [c]) := by
  induction parts with
  | nil => rfl
  | cons part parts ih =>
      rw [List.flatMap_cons, List.append_assoc, ih, List.flatMap_cons, List.cons_append,
        List.append_assoc, List.singleton_append]

/-- A text is any of its parts, with the others on both sides. -/
theorem eq_of_splitOn_eq_append {t part : Text} {front behind : List Text}
    (h : splitOn c t = front ++ part :: behind) :
    t = front.flatMap (· ++ [c]) ++ (part ++ behind.flatMap (c :: ·)) := by
  cases front with
  | nil => exact eq_of_splitOn_eq_cons h
  | cons first front =>
      rw [eq_of_splitOn_eq_cons h]
      calc first ++ (front ++ part :: behind).flatMap (c :: ·)
          = first ++ (front.flatMap (c :: ·) ++ [c]) ++
              (part ++ behind.flatMap (c :: ·)) := by
            simp [List.flatMap_append]
        _ = (first :: front).flatMap (· ++ [c]) ++
              (part ++ behind.flatMap (c :: ·)) := by
            rw [flatMap_cons_append]
            simp

end Text

end SourceMarkup
