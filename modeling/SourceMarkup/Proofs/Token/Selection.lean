import Mathlib.Data.List.Chain
import SourceMarkup.Proofs.Token.Cover

/-!
# Which tokens a cover keeps

A cover walks over tokens with a cursor. Said without the cursor, it selects tokens
greedily: each token is kept, unless it is empty, ends beyond the text or starts before a
token ends that is kept already. So a token is not dropped for the sake of one that is
dropped itself.

The cover is the selection with its gaps filled. `Part` tells the gaps apart from the
tokens, plain ones among them, so what a cover adds can be told from what it keeps.
-/

namespace SourceMarkup

namespace Token

/-- A token has no place in a text of `size` bytes beside tokens that are kept already. -/
def Misfits (size : Nat) (earlier : List Token) (token : Token) : Prop :=
  token.isEmpty = true ∨ size < token.stop ∨ ∃ other ∈ earlier, token.start < other.stop

instance (size : Nat) (earlier : List Token) (token : Token) :
    Decidable (Misfits size earlier token) :=
  inferInstanceAs (Decidable (_ ∨ _ ∨ _))

/-- The greedy selection of tokens: each of them is kept if it fits in beside those that
are kept before it. -/
def selection (size : Nat) (tokens : List Token) : List Token :=
  tokens.foldl
    (fun earlier token => if Misfits size earlier token then earlier else earlier ++ [token]) []

/-- A part of a cover: a gap between tokens, or a token. -/
inductive Part
  | gap (start stop : Nat)
  | kept (token : Token)

namespace Part

def token : Part → Token
  | gap start stop => ⟨.plain, start, stop⟩
  | kept token => token

/-- The token of a part that is no gap. -/
def kept? : Part → Option Token
  | gap _ _ => none
  | kept token => some token

def IsGap (part : Part) : Prop :=
  part.kept? = none

/-- The gap between two offsets, if there is anything between them. -/
def between (start stop : Nat) : List Part :=
  if start < stop then [gap start stop] else []

/-- Tokens with the gaps between them, from `cursor` to `size`. -/
def fill (size cursor : Nat) : List Token → List Part
  | [] => between cursor size
  | token :: tokens => between cursor token.start ++ kept token :: fill size token.stop tokens

variable {size cursor : Nat} {tokens : List Token}

theorem map_token_between (start stop : Nat) :
    (between start stop).map token = Token.gap start stop := by
  unfold between Token.gap
  split <;> rfl

theorem filterMap_kept?_between (start stop : Nat) :
    (between start stop).filterMap kept? = [] := by
  unfold between
  split <;> rfl

theorem lt_of_gap_mem_between {start stop u v : Nat} (h : gap u v ∈ between start stop) :
    u < v := by
  unfold between at h
  split at h
  · next hlt =>
      obtain ⟨rfl, rfl⟩ := Part.gap.inj (List.mem_singleton.1 h)
      exact hlt
  · exact absurd h List.not_mem_nil

theorem filterMap_kept?_fill (size cursor : Nat) (tokens : List Token) :
    (fill size cursor tokens).filterMap kept? = tokens := by
  induction tokens generalizing cursor with
  | nil => exact filterMap_kept?_between cursor size
  | cons token tokens ih =>
      rw [fill, List.filterMap_append, filterMap_kept?_between, List.nil_append,
        List.filterMap_cons, ih]
      rfl

theorem lt_of_gap_mem_fill {u v : Nat} (h : gap u v ∈ fill size cursor tokens) : u < v := by
  induction tokens generalizing cursor with
  | nil => exact lt_of_gap_mem_between h
  | cons token tokens ih =>
      rcases List.mem_append.1 h with h | h
      · exact lt_of_gap_mem_between h
      · rcases List.mem_cons.1 h with h | h
        · cases h
        · exact ih h

/-- A token stands between any two gaps. -/
theorem isChain_fill (size cursor : Nat) (tokens : List Token) :
    (fill size cursor tokens).IsChain fun part next => ¬ (part.IsGap ∧ next.IsGap) := by
  induction tokens generalizing cursor with
  | nil =>
      unfold fill between
      split
      · exact List.isChain_singleton _
      · exact List.isChain_nil
  | cons token tokens ih =>
      have hkept : ¬ (kept token).IsGap := Option.some_ne_none token
      have hrest : (kept token :: fill size token.stop tokens).IsChain
          fun part next => ¬ (part.IsGap ∧ next.IsGap) :=
        List.isChain_cons.2 ⟨fun _ _ h => hkept h.1, ih token.stop⟩
      unfold fill between
      split
      · exact List.isChain_cons_cons.2 ⟨fun h => hkept h.2, hrest⟩
      · exact hrest

/-- Where no token is plain, the gaps are what is plain. -/
theorem filter_map_token {parts : List Part}
    (h : ∀ token ∈ parts.filterMap kept?, token.kind ≠ .plain) :
    (parts.map token).filter (fun token => token.kind ≠ .plain) = parts.filterMap kept? := by
  induction parts with
  | nil => rfl
  | cons part parts ih =>
      cases part with
      | gap start stop => exact ih h
      | kept token =>
          obtain ⟨hkind, hparts⟩ := List.forall_mem_cons.1 h
          have hkeep : decide (token.kind ≠ .plain) = true := decide_eq_true hkind
          rw [List.map_cons, List.filter_cons]
          exact (if_pos hkeep).trans (congrArg (token :: ·) (ih hparts))

end Part

variable {size cursor : Nat} {tokens : List Token}

/-! ### The selection -/

/-- The cursor is the furthest end of the tokens that are kept already, so a token is
misplaced at the cursor if it does not fit in beside them. -/
theorem misfits_iff {earlier : List Token}
    (hcursor : ∀ n, (∃ other ∈ earlier, n < other.stop) ↔ n < cursor) (token : Token) :
    Misfits size earlier token ↔ isMisplaced cursor size token = true := by
  rw [Misfits, hcursor]
  simp only [isMisplaced, Bool.or_eq_true, decide_eq_true_eq]
  tauto

/-- The step of the induction over tokens: a token that is kept moves the furthest end of
those that are kept to its own end. -/
theorem foldl_eq_append_kept {earlier : List Token}
    (hcursor : ∀ n, (∃ other ∈ earlier, n < other.stop) ↔ n < cursor)
    (h : ∀ token ∈ tokens, token.start ≤ token.stop) :
    tokens.foldl (fun earlier token =>
        if Misfits size earlier token then earlier else earlier ++ [token]) earlier =
      earlier ++ kept size cursor tokens := by
  induction tokens generalizing earlier cursor with
  | nil => rw [List.foldl_nil, kept, List.append_nil]
  | cons token tokens ih =>
      obtain ⟨hle, htokens⟩ := List.forall_mem_cons.1 h
      rw [List.foldl_cons, kept]
      by_cases hmisfits : Misfits size earlier token
      · rw [if_pos hmisfits, if_pos ((misfits_iff hcursor token).1 hmisfits)]
        exact ih hcursor htokens
      · have hplaced : isMisplaced cursor size token = false := by
          rw [Bool.eq_false_iff]
          exact fun hmisplaced => hmisfits ((misfits_iff hcursor token).2 hmisplaced)
        have hstart : cursor ≤ token.start := (isMisplaced_eq_false_iff.1 hplaced).1
        have hnext : ∀ n, (∃ other ∈ earlier ++ [token], n < other.stop) ↔ n < token.stop := by
          intro n
          simp only [List.mem_append, List.mem_singleton, or_and_right, exists_or, hcursor,
            exists_eq_left]
          omega
        rw [if_neg hmisfits, hplaced, if_neg Bool.false_ne_true, ih hnext htokens,
          List.append_assoc, List.singleton_append]

theorem selection_eq_kept (size : Nat) (h : ∀ token ∈ tokens, token.start ≤ token.stop) :
    selection size tokens = kept size 0 tokens := by
  have hnone : ∀ n, (∃ other ∈ ([] : List Token), n < other.stop) ↔ n < 0 := by simp
  exact foldl_eq_append_kept hnone h

/-- Tokens in order that lie inside a text are all kept. -/
theorem kept_of_pairwise (hcursor : ∀ token ∈ tokens, cursor ≤ token.start)
    (hinside : ∀ token ∈ tokens, token.start < token.stop ∧ token.stop ≤ size)
    (hordered : tokens.Pairwise fun t u => t.stop ≤ u.start) :
    kept size cursor tokens = tokens := by
  induction tokens generalizing cursor with
  | nil => rfl
  | cons token tokens ih =>
      obtain ⟨hstart, -⟩ := List.forall_mem_cons.1 hcursor
      obtain ⟨⟨hlt, hstop⟩, htokens⟩ := List.forall_mem_cons.1 hinside
      obtain ⟨hnext, hrest⟩ := List.pairwise_cons.1 hordered
      have hplaced : isMisplaced cursor size token = false :=
        isMisplaced_eq_false_iff.2 ⟨hstart, hstop, Nat.ne_of_lt hlt⟩
      rw [kept, hplaced, if_neg Bool.false_ne_true, ih hnext htokens hrest]

/-! ### The cover -/

/-- A cover fills the gaps between the tokens that it keeps. -/
theorem coverFrom_eq_fill (size cursor : Nat) (tokens : List Token) :
    coverFrom size cursor tokens =
      (Part.fill size cursor (kept size cursor tokens)).map Part.token := by
  induction tokens generalizing cursor with
  | nil => exact (Part.map_token_between cursor size).symm
  | cons token tokens ih =>
      rw [coverFrom, kept]
      split
      · exact ih cursor
      · rw [Part.fill, List.map_append, Part.map_token_between, List.map_cons, ← ih]
        rfl

theorem cover_eq_fill (size : Nat) (h : ∀ token ∈ tokens, token.start ≤ token.stop) :
    cover size tokens = (Part.fill size 0 (selection size tokens)).map Part.token := by
  rw [selection_eq_kept size h]
  exact coverFrom_eq_fill size 0 tokens

/-- Where tokens leave no gap and none is misplaced, there is nothing to do. -/
theorem coverFrom_of_tiles (h : Tiles cursor size tokens) :
    coverFrom size cursor tokens = tokens := by
  induction tokens generalizing cursor with
  | nil =>
      obtain rfl : cursor = size := h
      exact if_neg (Nat.lt_irrefl cursor)
  | cons token tokens ih =>
      obtain ⟨rfl, hlt, htokens⟩ := h
      have hplaced : isMisplaced token.start size token = false :=
        isMisplaced_eq_false_iff.2 ⟨Nat.le_refl _, htokens.le, Nat.ne_of_lt hlt⟩
      rw [coverFrom, hplaced, if_neg Bool.false_ne_true, gap, if_neg (Nat.lt_irrefl _),
        List.nil_append, ih htokens]

theorem cover_cover (size : Nat) (h : ∀ token ∈ tokens, token.start ≤ token.stop) :
    cover size (cover size tokens) = cover size tokens := by
  refine coverFrom_of_tiles ((tiles_coverFrom_iff (Nat.zero_le size) tokens).2 ?_)
  exact fun token htoken => h token ((kept_sublist size 0 tokens).subset htoken)

end Token

end SourceMarkup
