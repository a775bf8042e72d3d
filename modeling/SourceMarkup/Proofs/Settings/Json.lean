import SourceMarkup.Settings.Json

/-!
# Reports say one thing

The text of a value of JSON ends by itself: no value is written as the start of what
another one is written as. So a text is that of one value at most, and what a report
says can be read off its text. A string is read character by character, and an escaped
character is told by what follows the backslash.
-/

namespace SourceMarkup

namespace Json

/-- The value in an object under the keys of a path. -/
def at? : Json → List Text → Option Json
  | json, [] => some json
  | object fields, key :: path => (fields.lookup key).bind (at? · path)
  | _, _ :: _ => none

/-! ### Strings -/

def unescape? (c : Char) : Option Char :=
  if c = '"' ∨ c = '\\' then some c
  else if c = 'n' then some '\n'
  else if c = 'r' then some '\r'
  else if c = 't' then some '\t'
  else if c = 'b' then some '\x08'
  else if c = 'f' then some '\x0c'
  else none

/-- The first character of a string that is written behind its opening quote. -/
def readChar? : Text → Option (Char × Text)
  | [] => none
  | '"' :: _ => none
  | '\\' :: 'u' :: '0' :: '0' :: high :: low :: rest =>
      match Text.hexDigit? high, Text.hexDigit? low with
      | some h, some l => some (Char.ofNat (16 * h + l), rest)
      | _, _ => none
  | '\\' :: c :: rest => (unescape? c).map (·, rest)
  | c :: rest => some (c, rest)

theorem hexDigit?_hexDigit {n : Nat} (h : n < 16) : Text.hexDigit? (hexDigit n) = some n := by
  have hall : ∀ m < 16, Text.hexDigit? (hexDigit m) = some m := by decide
  exact hall n h

theorem readChar?_of_ne {c : Char} (hquote : c ≠ '"') (hslash : c ≠ '\\') (rest : Text) :
    readChar? (c :: rest) = some (c, rest) := by
  unfold readChar?
  split <;> simp_all

theorem readChar?_escapeChar (c : Char) (rest : Text) :
    readChar? (escapeChar c ++ rest) = some (c, rest) := by
  unfold escapeChar
  split
  · next h => subst h; rfl
  split
  · next h => subst h; rfl
  split
  · next h => subst h; rfl
  split
  · next h => subst h; rfl
  split
  · next h => subst h; rfl
  split
  · next h => subst h; rfl
  split
  · next h => subst h; rfl
  split
  · next hcontrol =>
      have hhigh := hexDigit?_hexDigit (n := c.toNat / 16) (by omega)
      have hlow := hexDigit?_hexDigit (n := c.toNat % 16) (by omega)
      simp only [List.cons_append, List.nil_append, readChar?, hhigh, hlow,
        Nat.div_add_mod, Char.ofNat_toNat]
  · next hquote hslash _ _ _ _ _ _ => exact readChar?_of_ne hquote hslash rest

/-- What a string says ends where its closing quote is. -/
theorem escaped_inj {u v s t : Text}
    (h : u.flatMap escapeChar ++ '"' :: s = v.flatMap escapeChar ++ '"' :: t) :
    u = v ∧ s = t := by
  induction u generalizing v with
  | nil =>
      cases v with
      | nil => exact ⟨rfl, (List.cons.inj h).2⟩
      | cons d ds =>
          rw [List.flatMap_cons, List.append_assoc] at h
          have hread := congrArg readChar? h
          rw [readChar?_escapeChar] at hread
          cases hread
  | cons c cs ih =>
      cases v with
      | nil =>
          rw [List.flatMap_cons, List.append_assoc] at h
          have hread := congrArg readChar? h
          rw [readChar?_escapeChar] at hread
          cases hread
      | cons d ds =>
          rw [List.flatMap_cons, List.append_assoc, List.flatMap_cons, List.append_assoc] at h
          have hread := congrArg readChar? h
          rw [readChar?_escapeChar, readChar?_escapeChar] at hread
          obtain ⟨rfl, hrest⟩ := Prod.mk.inj (Option.some.inj hread)
          obtain ⟨rfl, rfl⟩ := ih hrest
          exact ⟨rfl, rfl⟩

theorem quoted_inj {u v s t : Text} (h : quoted u ++ s = quoted v ++ t) :
    u = v ∧ s = t := by
  refine escaped_inj ?_
  simpa [quoted] using h

/-! ### Values -/

mutual

/-- The text of a value ends by itself. -/
theorem pretty_inj (level : Nat) : ∀ {j k : Json} {s t : Text},
    pretty level j ++ s = pretty level k ++ t → j = k ∧ s = t
  | .string u, k, s, t, h => by
      cases k with
      | string v =>
          obtain ⟨rfl, rfl⟩ := quoted_inj h
          exact ⟨rfl, rfl⟩
      | array items => cases items <;> simp [pretty, quoted] at h
      | object fields => cases fields <;> simp [pretty, quoted] at h
  | .array [], k, s, t, h => by
      rcases k with v | (_ | ⟨item, items⟩) | (_ | ⟨field, fields⟩) <;>
        simp [pretty, quoted, newLine] at h
      exact ⟨rfl, h⟩
  | .array (item :: items), k, s, t, h => by
      rcases k with v | (_ | ⟨item', items'⟩) | (_ | ⟨field, fields⟩)
      case array.cons =>
        simp only [pretty, newLine, List.cons_append, List.append_assoc, List.cons.injEq,
          true_and, List.append_cancel_left_eq] at h
        obtain ⟨rfl, hitems⟩ := pretty_inj (level + 1) h
        obtain ⟨rfl, hend⟩ := prettyItems_inj (level + 1) hitems
        exact ⟨rfl, by simpa using hend⟩
      all_goals simp [pretty, quoted, newLine] at h
  | .object [], k, s, t, h => by
      rcases k with v | (_ | ⟨item, items⟩) | (_ | ⟨field, fields⟩) <;>
        simp [pretty, quoted, newLine] at h
      exact ⟨rfl, h⟩
  | .object ((key, value) :: fields), k, s, t, h => by
      rcases k with v | (_ | ⟨item, items⟩) | (_ | ⟨⟨key', value'⟩, fields'⟩)
      case object.cons =>
        simp only [pretty, prettyField, newLine, List.cons_append, List.append_assoc,
          List.cons.injEq, true_and, List.append_cancel_left_eq] at h
        obtain ⟨rfl, hvalue⟩ := quoted_inj h
        simp only [List.nil_append, List.cons.injEq, true_and] at hvalue
        obtain ⟨rfl, hfields⟩ := pretty_inj (level + 1) hvalue
        obtain ⟨rfl, hend⟩ := prettyFields_inj (level + 1) hfields
        exact ⟨rfl, by simpa using hend⟩
      all_goals simp [pretty, quoted, newLine] at h

/-- The text of further items ends with the line. -/
theorem prettyItems_inj (level : Nat) : ∀ {items items' : List Json} {s t : Text},
    prettyItems level items ++ '\n' :: s = prettyItems level items' ++ '\n' :: t →
      items = items' ∧ s = t
  | [], items', s, t, h => by
      cases items' with
      | nil => exact ⟨rfl, (List.cons.inj h).2⟩
      | cons item' items' => simp [prettyItems] at h
  | item :: items, items', s, t, h => by
      cases items' with
      | nil => simp [prettyItems] at h
      | cons item' items' =>
          simp only [prettyItems, List.cons_append, List.append_assoc, List.cons.injEq,
            true_and, List.append_cancel_left_eq] at h
          obtain ⟨rfl, hrest⟩ := pretty_inj level h
          obtain ⟨rfl, rfl⟩ := prettyItems_inj level hrest
          exact ⟨rfl, rfl⟩

/-- The text of further fields ends with the line. -/
theorem prettyFields_inj (level : Nat) : ∀ {fields fields' : List (Text × Json)} {s t : Text},
    prettyFields level fields ++ '\n' :: s = prettyFields level fields' ++ '\n' :: t →
      fields = fields' ∧ s = t
  | [], fields', s, t, h => by
      cases fields' with
      | nil => exact ⟨rfl, (List.cons.inj h).2⟩
      | cons field' fields' => simp [prettyFields] at h
  | (key, value) :: fields, fields', s, t, h => by
      cases fields' with
      | nil => simp [prettyFields] at h
      | cons field' fields' =>
          obtain ⟨key', value'⟩ := field'
          simp only [prettyFields, prettyField, List.cons_append, List.append_assoc,
            List.cons.injEq, true_and, List.append_cancel_left_eq] at h
          obtain ⟨rfl, hvalue⟩ := quoted_inj h
          simp only [List.nil_append, List.cons.injEq, true_and] at hvalue
          obtain ⟨rfl, hrest⟩ := pretty_inj level hvalue
          obtain ⟨rfl, rfl⟩ := prettyFields_inj level hrest
          exact ⟨rfl, rfl⟩

end

end Json

end SourceMarkup
