import SourceMarkup.Proofs.Lexeme.Basic

/-!
# Covers of lexemes

The cover that the tokens of lexemes make has one plain token where plain lexemes
follow each other. `merge` joins such lexemes, and the tokens of the merged lexemes
are the cover.
-/

namespace SourceMarkup

namespace Lexeme

def plainPart (t : Text) : List Lexeme :=
  if t.isEmpty then [] else [⟨.plain, t⟩]

/-- Lexemes after the plain text `pending`, with neighbouring plain ones joined. -/
def mergeFrom (pending : Text) : List Lexeme → List Lexeme
  | [] => plainPart pending
  | lexeme :: lexemes =>
      if lexeme.kind = .plain then mergeFrom (pending ++ lexeme.text) lexemes
      else plainPart pending ++ lexeme :: mergeFrom [] lexemes

def merge (lexemes : List Lexeme) : List Lexeme :=
  mergeFrom [] lexemes

@[simp] theorem source_plainPart (t : Text) : source (plainPart t) = t := by
  cases t <;> simp [plainPart]

theorem solid_plainPart (t : Text) : Solid (plainPart t) := by
  cases t <;> simp [plainPart, Solid]

theorem spansFrom_plainPart (offset : Nat) (t : Text) :
    spansFrom offset (plainPart t) =
      Token.gap offset (offset + t.byteLength) := by
  cases t with
  | nil => simp [plainPart, spansFrom, Token.gap]
  | cons c cs =>
      have hpos := Text.byteLength_cons_pos c cs
      rw [Token.gap, if_pos (Nat.lt_add_of_pos_right hpos)]
      rfl

theorem spansFrom_append (offset : Nat) (ls ms : List Lexeme) :
    spansFrom offset (ls ++ ms) =
      spansFrom offset ls ++ spansFrom (offset + (source ls).byteLength) ms := by
  induction ls generalizing offset with
  | nil => rfl
  | cons l ls ih =>
      rw [List.cons_append, spansFrom, spansFrom, ih, source_cons,
        Text.byteLength_append, ← Nat.add_assoc, List.cons_append]

theorem source_mergeFrom (pending : Text) (ls : List Lexeme) :
    source (mergeFrom pending ls) = pending ++ source ls := by
  induction ls generalizing pending with
  | nil => simp [mergeFrom]
  | cons l ls ih =>
      unfold mergeFrom
      split
      · rw [ih, source_cons, List.append_assoc]
      · rw [source_append, source_plainPart, source_cons, ih, List.nil_append,
          source_cons]

@[simp] theorem source_merge (ls : List Lexeme) : source (merge ls) = source ls :=
  source_mergeFrom [] ls

theorem solid_mergeFrom (pending : Text) {ls : List Lexeme} (h : Solid ls) :
    Solid (mergeFrom pending ls) := by
  induction ls generalizing pending with
  | nil => exact solid_plainPart pending
  | cons l ls ih =>
      unfold mergeFrom
      split
      · exact ih _ h.tail
      · refine solid_append (solid_plainPart pending) ?_
        intro m hm
        rcases List.mem_cons.1 hm with rfl | hm
        · exact h.head
        · exact ih [] h.tail m hm

theorem solid_merge {ls : List Lexeme} (h : Solid ls) : Solid (merge ls) :=
  solid_mergeFrom [] h

/-- The step of the induction over lexemes: the cursor of the cover is behind by
the plain text that is pending. -/
theorem coverFrom_tokensFrom (cursor : Nat) (pending : Text) {ls : List Lexeme}
    (h : Solid ls) :
    Token.coverFrom (cursor + (pending ++ source ls).byteLength) cursor
        (tokensFrom (cursor + pending.byteLength) ls) =
      spansFrom cursor (mergeFrom pending ls) := by
  induction ls generalizing cursor pending with
  | nil =>
      rw [source_nil, List.append_nil, mergeFrom, spansFrom_plainPart]
      rfl
  | cons l ls ih =>
      unfold tokensFrom mergeFrom
      split
      · rw [← ih cursor (pending ++ l.text) h.tail, source_cons, List.append_assoc,
          Text.byteLength_append pending l.text, Nat.add_assoc]
      · have hpos := Text.byteLength_pos h.head
        have hplaced : Token.isMisplaced cursor
            (cursor + (pending ++ source (l :: ls)).byteLength)
            ⟨l.kind, cursor + pending.byteLength,
              cursor + pending.byteLength + l.text.byteLength⟩ = false := by
          rw [Token.isMisplaced_eq_false_iff, Text.byteLength_append, source_cons,
            Text.byteLength_append]
          dsimp only
          omega
        have hsize : cursor + (pending ++ source (l :: ls)).byteLength =
            cursor + pending.byteLength + l.text.byteLength +
              ([] ++ source ls : Text).byteLength := by
          simp [Nat.add_assoc]
        rw [Token.coverFrom, hplaced, hsize]
        simp only [Bool.false_eq_true, if_false]
        rw [spansFrom_append, spansFrom_plainPart, source_plainPart, spansFrom]
        have hrest := ih (cursor + pending.byteLength + l.text.byteLength) [] h.tail
        rw [Text.byteLength_nil, Nat.add_zero] at hrest
        rw [hrest]

theorem cover_tokensFrom {ls : List Lexeme} (h : Solid ls) :
    Token.cover (source ls).byteLength (tokensFrom 0 ls) = spansFrom 0 (merge ls) := by
  have hcover := coverFrom_tokensFrom 0 [] h
  simpa [Token.cover, merge] using hcover

/-! ### Plain parts -/

/-- What is asked of plain lexemes, each with what follows it, and of no others. -/
def IfPlain (P : Text → Text → Prop) (lexeme : Lexeme) (after : Text) : Prop :=
  lexeme.kind = .plain → P lexeme.text after

theorem each_plainPart {P : Text → Text → Prop} {t after : Text} (h : t ≠ [] → P t after) :
    Each text (IfPlain P) after (plainPart t) := by
  unfold plainPart
  split
  · trivial
  · next hne => exact ⟨fun _ => h (by simpa using hne), trivial⟩

/-- What holds of two neighbours together if it holds of each is kept by joining plain
lexemes. The pending text is a plain one already, unless it is empty. -/
theorem each_mergeFrom {P : Text → Text → Prop}
    (hjoin : ∀ {s t rest : Text}, P s (t ++ rest) → P t rest → P (s ++ t) rest)
    {pending after : Text} {ls : List Lexeme}
    (hpending : pending ≠ [] → P pending (source ls ++ after))
    (h : Each text (IfPlain P) after ls) :
    Each text (IfPlain P) after (mergeFrom pending ls) := by
  induction ls generalizing pending with
  | nil => exact each_plainPart hpending
  | cons l ls ih =>
      obtain ⟨hl, hls⟩ := h
      rw [source_cons, List.append_assoc] at hpending
      rw [mergeFrom]
      split
      · next hplain =>
          refine ih (fun _ => ?_) hls
          by_cases hempty : pending = []
          · rw [hempty]
            exact hl hplain
          · exact hjoin (hpending hempty) (hl hplain)
      · next hplain =>
          have hrest : source (mergeFrom [] ls) = source ls := source_mergeFrom [] ls
          rw [each_append, Each]
          refine ⟨each_plainPart fun hne => ?_, fun hk => absurd hk hplain,
            ih (fun hne => absurd rfl hne) hls⟩
          rw [List.flatMap_cons, ← source, hrest, List.append_assoc]
          exact hpending hne

/-- What the parts of lexemes satisfy, the plain parts of their cover satisfy. -/
theorem each_merge {P : Text → Text → Prop}
    (hjoin : ∀ {s t rest : Text}, P s (t ++ rest) → P t rest → P (s ++ t) rest)
    {after : Text} {ls : List Lexeme} (h : Each text (IfPlain P) after ls) :
    Each text (IfPlain P) after (merge ls) :=
  each_mergeFrom hjoin (fun hne => absurd rfl hne) h

end Lexeme

end SourceMarkup
