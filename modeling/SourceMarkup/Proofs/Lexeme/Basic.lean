import Mathlib.Data.List.TakeWhile
import SourceMarkup.Lexeme.Basic
import SourceMarkup.Proofs.Text.Slice
import SourceMarkup.Proofs.Token.Cover

/-!
# Lexemes and their tokens

`spansFrom` gives every lexeme its token, plain ones too. Lexemes without an empty
text make a row of tokens that follow each other, and each of them cuts the text
of its lexeme out of the source. `tokensFrom` leaves the plain ones out.
-/

namespace SourceMarkup

def Token.shift (n : Nat) (token : Token) : Token :=
  { token with start := n + token.start, stop := n + token.stop }

namespace Lexeme

/-- The tokens of lexemes, plain ones too, where the first lexeme starts at
`offset`. -/
def spansFrom (offset : Nat) : List Lexeme → List Token
  | [] => []
  | lexeme :: lexemes =>
      let stop := offset + lexeme.text.byteLength
      ⟨lexeme.kind, offset, stop⟩ :: spansFrom stop lexemes

def Solid (lexemes : List Lexeme) : Prop :=
  ∀ lexeme ∈ lexemes, lexeme.text ≠ []

@[simp] theorem source_nil : source [] = [] := rfl

@[simp] theorem source_cons (lexeme : Lexeme) (lexemes : List Lexeme) :
    source (lexeme :: lexemes) = lexeme.text ++ source lexemes := rfl

@[simp] theorem source_append (ls ms : List Lexeme) :
    source (ls ++ ms) = source ls ++ source ms := by
  simp [source]

theorem Solid.head {lexeme : Lexeme} {lexemes : List Lexeme}
    (h : Solid (lexeme :: lexemes)) : lexeme.text ≠ [] :=
  h lexeme List.mem_cons_self

theorem Solid.tail {lexeme : Lexeme} {lexemes : List Lexeme}
    (h : Solid (lexeme :: lexemes)) : Solid lexemes :=
  fun l hl => h l (List.mem_cons_of_mem lexeme hl)

theorem solid_append {ls ms : List Lexeme} (hls : Solid ls) (hms : Solid ms) :
    Solid (ls ++ ms) := by
  intro l hl
  rcases List.mem_append.1 hl with h | h
  · exact hls l h
  · exact hms l h

theorem tokensFrom_append (offset : Nat) (ls ms : List Lexeme) :
    tokensFrom offset (ls ++ ms) =
      tokensFrom offset ls ++ tokensFrom (offset + (source ls).byteLength) ms := by
  induction ls generalizing offset with
  | nil => rfl
  | cons l ls ih =>
      rw [List.cons_append, tokensFrom, tokensFrom, source_cons,
        Text.byteLength_append, ← Nat.add_assoc]
      split
      · exact ih _
      · rw [ih, List.cons_append]

/-- The tokens of lexemes move with the place where the lexemes start. -/
theorem tokensFrom_add (n offset : Nat) (ls : List Lexeme) :
    tokensFrom (n + offset) ls = (tokensFrom offset ls).map (Token.shift n) := by
  induction ls generalizing offset with
  | nil => rfl
  | cons l ls ih =>
      rw [tokensFrom, tokensFrom, Nat.add_assoc]
      split
      · exact ih _
      · rw [ih, List.map_cons, Token.shift]

theorem tokensFrom_eq_filter (offset : Nat) (ls : List Lexeme) :
    tokensFrom offset ls =
      (spansFrom offset ls).filter (fun token => token.kind ≠ .plain) := by
  induction ls generalizing offset with
  | nil => rfl
  | cons l ls ih =>
      rw [tokensFrom, spansFrom, List.filter_cons]
      split
      · next hplain => simp [hplain, ih]
      · next hplain => simp [hplain, ih]

theorem tiles_spansFrom {ls : List Lexeme} (h : Solid ls) (offset : Nat) :
    Token.Tiles offset (offset + (source ls).byteLength) (spansFrom offset ls) := by
  induction ls generalizing offset with
  | nil => rfl
  | cons l ls ih =>
      have hpos := Text.byteLength_pos h.head
      rw [spansFrom, source_cons, Text.byteLength_append, ← Nat.add_assoc]
      exact ⟨rfl, Nat.lt_add_of_pos_right hpos, ih h.tail _⟩

theorem exists_split_of_mem_spansFrom {offset : Nat} {ls : List Lexeme} {token : Token}
    (h : token ∈ spansFrom offset ls) :
    ∃ front l back, ls = front ++ l :: back ∧
      token = ⟨l.kind, offset + (source front).byteLength,
        offset + (source front).byteLength + l.text.byteLength⟩ := by
  induction ls generalizing offset with
  | nil => exact absurd h List.not_mem_nil
  | cons l ls ih =>
      rcases List.mem_cons.1 h with rfl | h
      · exact ⟨[], l, ls, rfl, rfl⟩
      · obtain ⟨front, m, back, rfl, rfl⟩ := ih h
        refine ⟨l :: front, m, back, rfl, ?_⟩
        rw [source_cons, Text.byteLength_append, ← Nat.add_assoc]

/-- A token of lexemes lies in their source where the text of its lexeme does. -/
theorem exists_of_mem_spansFrom (before : Text) {ls : List Lexeme} {token : Token}
    (h : token ∈ spansFrom before.byteLength ls) :
    ∃ l ∈ ls, ∃ b a, before ++ source ls = b ++ (l.text ++ a) ∧
      token = ⟨l.kind, b.byteLength, b.byteLength + l.text.byteLength⟩ := by
  obtain ⟨front, l, back, rfl, rfl⟩ := exists_split_of_mem_spansFrom h
  refine ⟨l, List.mem_append_right front List.mem_cons_self, before ++ source front,
    source back, ?_, ?_⟩
  · rw [source_append, source_cons, List.append_assoc]
  · rw [Text.byteLength_append]

/-! ### Rows -/

/-- A member of two neighbours is one of the first or one of the second. -/
theorem append_eq_append_cons {α : Type} {as bs front back : List α} {a : α}
    (h : as ++ bs = front ++ a :: back) :
    (∃ rest, as = front ++ a :: rest ∧ back = rest ++ bs) ∨
      ∃ rest, front = as ++ rest ∧ bs = rest ++ a :: back := by
  rcases List.append_eq_append_iff.1 h with ⟨rest, hfront, hbs⟩ | ⟨rest, has, hback⟩
  · exact .inr ⟨rest, hfront, hbs⟩
  · cases rest with
    | nil => exact .inr ⟨[], by rw [has, List.append_nil, List.append_nil], hback.symm⟩
    | cons b bs =>
        obtain ⟨rfl, rfl⟩ := List.cons.inj hback
        exact .inl ⟨bs, has, rfl⟩

/-- Each member of a row satisfies `P` together with the text that follows it, where
`after` follows the row. -/
def Each {α : Type} (text : α → Text) (P : α → Text → Prop) (after : Text) : List α → Prop
  | [] => True
  | a :: as => P a (as.flatMap text ++ after) ∧ Each text P after as

section Each

variable {α : Type} {part : α → Text} {P Q : α → Text → Prop} {after : Text}

theorem each_append (as bs : List α) :
    Each part P after (as ++ bs) ↔
      Each part P (bs.flatMap part ++ after) as ∧ Each part P after bs := by
  induction as with
  | nil => simp [Each]
  | cons a as ih =>
      rw [List.cons_append, Each, Each, ih, List.flatMap_append, List.append_assoc, and_assoc]

theorem Each.of_append_cons {front back : List α} {a : α}
    (h : Each part P after (front ++ a :: back)) : P a (back.flatMap part ++ after) :=
  ((each_append front (a :: back)).1 h).2.1

theorem each_of_forall {as : List α} (h : ∀ a ∈ as, ∀ rest, P a rest) :
    Each part P after as := by
  induction as with
  | nil => trivial
  | cons a as ih =>
      obtain ⟨ha, has⟩ := List.forall_mem_cons.1 h
      exact ⟨ha _, ih has⟩

end Each

/-! ### Lengths -/

theorem take_runLength (p : Char → Bool) (t : Text) :
    t.take (runLength p t) = t.takeWhile p :=
  (List.prefix_iff_eq_take.1 (List.takeWhile_prefix p)).symm

theorem drop_runLength (p : Char → Bool) (t : Text) :
    t.drop (runLength p t) = t.dropWhile p := by
  have hsplit : t.takeWhile p ++ t.dropWhile p = t := List.takeWhile_append_dropWhile
  calc t.drop (runLength p t)
      = (t.takeWhile p ++ t.dropWhile p).drop (t.takeWhile p).length := by
        rw [hsplit, runLength]
    _ = t.dropWhile p := List.drop_left

theorem take_runLength_succ (p : Char → Bool) (t : Text) :
    t.take (runLength p t + 1) = t.takeWhile p ++ (t.dropWhile p).take 1 := by
  rw [List.take_add, take_runLength, drop_runLength]

theorem runLength_append {p : Char → Bool} {w : Text} (hw : ∀ c ∈ w, p c = true)
    {t : Text} (ht : t.head?.any p = false) : runLength p (w ++ t) = w.length := by
  have hrun : t.takeWhile p = [] := by
    cases t with
    | nil => rfl
    | cons c cs => exact List.takeWhile_cons_of_neg (by simpa using ht)
  rw [runLength, List.takeWhile_append_of_pos hw, hrun, List.append_nil]

theorem head?_any_dropWhile (p : Char → Bool) (t : Text) :
    (t.dropWhile p).head?.any p = false := by
  cases h : (t.dropWhile p).head? with
  | none => rfl
  | some c => simpa [h] using List.head?_dropWhile_not p t

theorem head?_take_throughLength (d : Char) (ds t : Text) :
    (t.take (throughLength (d :: ds) t)).head? = t.head? := by
  cases t with
  | nil => rfl
  | cons c cs =>
      unfold throughLength
      split
      · rfl
      · rfl

/-- What holds no first character of a terminator holds no terminator. -/
theorem throughLength_append {d : Char} {ds w : Text} (hw : d ∉ w) (t : Text) :
    throughLength (d :: ds) (w ++ t) = w.length + throughLength (d :: ds) t := by
  induction w with
  | nil => simp
  | cons c cs ih =>
      have hne : (d == c) = false := by
        refine beq_false_of_ne ?_
        rintro rfl
        exact hw List.mem_cons_self
      have hcs : d ∉ cs := fun h => hw (List.mem_cons_of_mem c h)
      rw [List.cons_append, throughLength, List.isPrefixOf_cons_cons, hne,
        Bool.false_and, if_neg Bool.false_ne_true, ih hcs, List.length_cons]
      omega

end Lexeme

end SourceMarkup
