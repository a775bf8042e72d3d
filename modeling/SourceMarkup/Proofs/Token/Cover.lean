import SourceMarkup.Token.Basic

/-!
# Covers

`Tiles start stop tokens` says that tokens follow each other without a gap from
one offset to another, and that none of them is empty. A cover is such a row of
tokens, whatever tokens it is made from, as long as it keeps none that ends before
it starts: such a token passes every test of a cover, and moves its end back.

`kept` are the tokens that a cover keeps. Each of them starts where an earlier one
ended or later, ends inside the text, and does not end where it starts.
-/

namespace SourceMarkup

namespace Token

/-- Tokens that follow each other without a gap from `start` to `stop`, none of
them empty. -/
def Tiles (start stop : Nat) : List Token → Prop
  | [] => start = stop
  | token :: tokens =>
      token.start = start ∧ token.start < token.stop ∧ Tiles token.stop stop tokens

/-- The tokens that the cover of the rest of a text keeps. -/
def kept (size cursor : Nat) : List Token → List Token
  | [] => []
  | token :: tokens =>
      if isMisplaced cursor size token then kept size cursor tokens
      else token :: kept size token.stop tokens

@[simp] theorem tiles_nil (start stop : Nat) : Tiles start stop [] ↔ start = stop :=
  Iff.rfl

@[simp] theorem tiles_cons (start stop : Nat) (token : Token) (tokens : List Token) :
    Tiles start stop (token :: tokens) ↔
      token.start = start ∧ token.start < token.stop ∧
        Tiles token.stop stop tokens :=
  Iff.rfl

theorem tiles_append (start stop : Nat) (ts us : List Token) :
    Tiles start stop (ts ++ us) ↔ ∃ mid, Tiles start mid ts ∧ Tiles mid stop us := by
  induction ts generalizing start with
  | nil => simp
  | cons t ts ih =>
      rw [List.cons_append, tiles_cons, ih]
      constructor
      · rintro ⟨hstart, hlt, mid, hts, hus⟩
        exact ⟨mid, ⟨hstart, hlt, hts⟩, hus⟩
      · rintro ⟨mid, ⟨hstart, hlt, hts⟩, hus⟩
        exact ⟨hstart, hlt, mid, hts, hus⟩

theorem Tiles.le {start stop : Nat} {tokens : List Token}
    (h : Tiles start stop tokens) : start ≤ stop := by
  induction tokens generalizing start with
  | nil => exact Nat.le_of_eq h
  | cons token tokens ih =>
      obtain ⟨rfl, hlt, htokens⟩ := h
      exact Nat.le_trans (Nat.le_of_lt hlt) (ih htokens)

theorem Tiles.eq_nil_iff {start stop : Nat} {tokens : List Token}
    (h : Tiles start stop tokens) : tokens = [] ↔ start = stop := by
  cases tokens with
  | nil => simpa using h
  | cons token tokens =>
      obtain ⟨rfl, hlt, htokens⟩ := h
      have hle := htokens.le
      simp only [reduceCtorEq, false_iff]
      omega

theorem Tiles.bounds {start stop : Nat} {tokens : List Token}
    (h : Tiles start stop tokens) {token : Token} (ht : token ∈ tokens) :
    start ≤ token.start ∧ token.start < token.stop ∧ token.stop ≤ stop := by
  induction tokens generalizing start with
  | nil => exact absurd ht List.not_mem_nil
  | cons t ts ih =>
      obtain ⟨rfl, hlt, hts⟩ := h
      rcases List.mem_cons.1 ht with rfl | ht
      · exact ⟨Nat.le_refl _, hlt, hts.le⟩
      · obtain ⟨hstart, hrest⟩ := ih hts ht
        exact ⟨Nat.le_trans (Nat.le_of_lt hlt) hstart, hrest⟩

theorem Tiles.pairwise {start stop : Nat} {tokens : List Token}
    (h : Tiles start stop tokens) : tokens.Pairwise (fun t u => t.stop ≤ u.start) := by
  induction tokens generalizing start with
  | nil => exact List.Pairwise.nil
  | cons t ts ih =>
      obtain ⟨rfl, -, hts⟩ := h
      exact List.Pairwise.cons (fun u hu => (hts.bounds hu).1) (ih hts)

theorem tiles_gap {start stop : Nat} (h : start ≤ stop) :
    Tiles start stop (gap start stop) := by
  unfold gap
  split
  · simp only [tiles_cons, tiles_nil, and_true, true_and]
    assumption
  · simp only [tiles_nil]
    omega

/-- A gap at the front of a tiling ends where the rest of it starts. -/
theorem tiles_gap_append_iff {start mid stop : Nat} (h : start ≤ mid)
    (token : Token) (tokens : List Token) (hstart : token.start = mid) :
    Tiles start stop (gap start mid ++ token :: tokens) ↔
      token.start < token.stop ∧ Tiles token.stop stop tokens := by
  rw [tiles_append]
  constructor
  · rintro ⟨n, -, -, hlt, htokens⟩
    exact ⟨hlt, htokens⟩
  · rintro ⟨hlt, htokens⟩
    exact ⟨mid, tiles_gap h, hstart, hlt, htokens⟩

theorem isMisplaced_eq_false_iff {cursor size : Nat} {token : Token} :
    isMisplaced cursor size token = false ↔
      cursor ≤ token.start ∧ token.stop ≤ size ∧ token.start ≠ token.stop := by
  simp only [isMisplaced, isEmpty, Bool.or_eq_false_iff, decide_eq_false_iff_not,
    Nat.not_lt, beq_eq_false_iff_ne, and_assoc, ne_eq]

theorem kept_sublist (size cursor : Nat) (tokens : List Token) :
    (kept size cursor tokens).Sublist tokens := by
  induction tokens generalizing cursor with
  | nil => exact List.Sublist.slnil
  | cons token tokens ih =>
      unfold kept
      split
      · exact (ih cursor).cons token
      · exact (ih token.stop).cons_cons token

/-- The step of the induction over tokens: the cursor lies inside the text as long
as no token is kept that ends before it starts. -/
theorem tiles_coverFrom_iff {size cursor : Nat} (hcursor : cursor ≤ size)
    (tokens : List Token) :
    Tiles cursor size (coverFrom size cursor tokens) ↔
      ∀ token ∈ kept size cursor tokens, token.start ≤ token.stop := by
  induction tokens generalizing cursor with
  | nil =>
      have htiles : Tiles cursor size (coverFrom size cursor []) := tiles_gap hcursor
      simp [htiles, kept]
  | cons token tokens ih =>
      cases hmisplaced : isMisplaced cursor size token with
      | true => simp only [coverFrom, kept, hmisplaced, if_true, ih hcursor]
      | false =>
          obtain ⟨hle, hstop, hne⟩ := isMisplaced_eq_false_iff.1 hmisplaced
          have hlt : token.start < token.stop ↔ token.start ≤ token.stop := by omega
          simp only [coverFrom, kept, hmisplaced, Bool.false_eq_true, if_false]
          rw [tiles_gap_append_iff hle token _ rfl, ih hstop, List.forall_mem_cons, hlt]

/-- A cover is a row of tokens from the start of a text to its end, empty for the
empty text only, if and only if it keeps no token that ends before it starts. -/
theorem tiles_cover_iff (size : Nat) (tokens : List Token) :
    Tiles 0 size (cover size tokens) ∧ (cover size tokens = [] ↔ size = 0) ↔
      ∀ token ∈ kept size 0 tokens, token.start ≤ token.stop := by
  rw [← tiles_coverFrom_iff (Nat.zero_le size) tokens]
  constructor
  · intro h
    exact h.1
  · intro h
    exact ⟨h, by rw [cover, h.eq_nil_iff, eq_comm]⟩

/-- A token that ends before it starts is kept, and the cover goes back. -/
theorem not_tiles_cover_reversed :
    ¬ Tiles 0 4 (cover 4 [⟨.keyword, 3, 1⟩]) := by
  rw [show cover 4 [⟨.keyword, 3, 1⟩] =
    [⟨.plain, 0, 3⟩, ⟨.keyword, 3, 1⟩, ⟨.plain, 1, 4⟩] from rfl]
  simp

end Token

end SourceMarkup
