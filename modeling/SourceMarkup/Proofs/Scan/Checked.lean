import SourceMarkup.Proofs.Scan.Eat

/-!
# Checked scans

A scan has an answer everywhere: `slice` cuts off what does not lie in the source, `bump`
stops at the end, and a loop whose round comes no further is left. A checked scan does the
same steps with no such help, and moves the cursor without looking at the end. It stops with
a fault where the cursor is beyond the end, where a slice does not lie in the source, where
a round that is to be repeated has not moved the cursor, and where a loop has not ended
after as many rounds as there were bytes left. `Checked.loop_eq` shows that a loop has no
such fault from what its rounds do.

`Advances s t` says that `t` is further in the same source as `s`, and `Forward view stop round`
that every round advances, apart from a last one that leaves all as it was, at the end or at
a character in `stop`.
-/

namespace SourceMarkup

open Text

namespace Scan

/-! ### Further in a source -/

def InBounds (s : Scan) : Prop :=
  s.pos ≤ s.bytes.size

/-- A scan in the same source, not before another one and not beyond the end. -/
structure Reaches (s t : Scan) : Prop where
  bytes_eq : t.bytes = s.bytes
  pos_le : s.pos ≤ t.pos
  inBounds : t.InBounds

/-- A scan in the same source, after another one and not beyond the end. -/
structure Advances (s t : Scan) : Prop extends Reaches s t where
  pos_lt : s.pos < t.pos

variable {s t u : Scan} {c : Char} {p : Char → Bool}

theorem InBounds.reaches (h : s.InBounds) : Reaches s s :=
  ⟨rfl, Nat.le_refl _, h⟩

theorem Reaches.trans (h : Reaches s t) (hnext : Reaches t u) : Reaches s u where
  bytes_eq := hnext.bytes_eq.trans h.bytes_eq
  pos_le := Nat.le_trans h.pos_le hnext.pos_le
  inBounds := hnext.inBounds

theorem Advances.trans (h : Advances s t) (hnext : Reaches t u) : Advances s u where
  toReaches := h.toReaches.trans hnext
  pos_lt := Nat.lt_of_lt_of_le h.pos_lt hnext.pos_le

theorem Reaches.trans_advances (h : Reaches s t) (hnext : Advances t u) : Advances s u where
  toReaches := h.trans hnext.toReaches
  pos_lt := Nat.lt_of_le_of_lt h.pos_le hnext.pos_lt

@[simp] theorem emitRange_pos (kind : TokenKind) (start stop : Nat) (s : Scan) :
    (s.emitRange kind start stop).pos = s.pos := by
  unfold emitRange
  split <;> rfl

@[simp] theorem emitRange_bytes (kind : TokenKind) (start stop : Nat) (s : Scan) :
    (s.emitRange kind start stop).bytes = s.bytes := by
  unfold emitRange
  split <;> rfl

theorem peek_emitRange (kind : TokenKind) (start stop : Nat) (s : Scan) :
    (s.emitRange kind start stop).peek = s.peek := by
  unfold emitRange
  split <;> rfl

theorem Reaches.emitRange (h : Reaches s t) (kind : TokenKind) (start stop : Nat) :
    Reaches s (t.emitRange kind start stop) where
  bytes_eq := by rw [emitRange_bytes, h.bytes_eq]
  pos_le := by rw [emitRange_pos]; exact h.pos_le
  inBounds := by rw [InBounds, emitRange_pos, emitRange_bytes]; exact h.inBounds

theorem Reaches.emit (h : Reaches s t) (kind : TokenKind) (start : Nat) :
    Reaches s (t.emit kind start) :=
  h.emitRange kind start t.pos

theorem Advances.emit (h : Advances s t) (kind : TokenKind) (start : Nat) :
    Advances s (t.emit kind start) where
  toReaches := h.toReaches.emit kind start
  pos_lt := by rw [Scan.emit, emitRange_pos]; exact h.pos_lt

theorem InBounds.bump (h : s.InBounds) (n : Nat) : Reaches s (s.bump n) where
  bytes_eq := rfl
  pos_le := Nat.le_min.2 ⟨Nat.le_add_right _ _, h⟩
  inBounds := Nat.min_le_right _ _

theorem inBounds_of_peek (h : s.peek = some c) : s.InBounds :=
  Nat.le_of_lt (pos_lt_of_peek h)

/-- Where there is a byte, a step goes over it. -/
theorem advances_bump (h : s.peek = some c) {n : Nat} (hn : 0 < n) :
    Advances s (s.bump n) where
  toReaches := (inBounds_of_peek h).bump n
  pos_lt := Nat.lt_min.2 ⟨Nat.lt_add_of_pos_right hn, pos_lt_of_peek h⟩

/-! ### Steps and slices -/

theorem InBounds.add_length_ahead (h : s.InBounds) :
    s.pos + s.ahead.length = s.bytes.size := by
  rw [length_ahead]
  exact Nat.add_sub_of_le h

theorem length_slice {start stop : Nat} (h : stop ≤ s.bytes.size) :
    (s.slice start stop).length = stop - start := by
  rw [slice, List.length_map, Array.length_toList, Array.size_extract, Nat.min_eq_left h]

/-- There is one byte before the cursor. -/
theorem exists_slice_eq_singleton (s : Scan) (hpos : 0 < s.pos) (h : s.InBounds) :
    ∃ c, s.slice (s.pos - 1) s.pos = [c] := by
  rw [← List.length_eq_one_iff, length_slice h]
  omega

/-! ### Rounds that lead ahead -/

section Forward

variable {σ : Type} {view : σ → Scan} {stop : Char → Bool} {round : σ → Round σ}

/-- What a round leaves is further than what it found. The last one may leave what it found
instead, if it stands at the end or at a character in `stop`. -/
def Ahead (view : σ → Scan) (stop : Char → Bool) (s : σ) : Round σ → Prop
  | .again t => Advances (view s) (view t)
  | .done t => Advances (view s) (view t) ∨ t = s ∧ (view s).peek.all stop = true

def Forward (view : σ → Scan) (stop : Char → Bool) (round : σ → Round σ) : Prop :=
  ∀ s, (view s).InBounds → Ahead view stop s (round s)

theorem ahead_of_peek_none {s : σ} (h : (view s).peek = none) :
    Ahead view stop s (.done s) :=
  .inr ⟨rfl, by rw [h, Option.all_none]⟩

theorem ahead_of_stop {s : σ} {c : Char} (h : (view s).peek = some c) (hc : stop c = true) :
    Ahead view stop s (.done s) :=
  .inr ⟨rfl, by rw [h, Option.all_some, hc]⟩

theorem Forward.again (hforward : Forward view stop round) {s t : σ} (h : (view s).InBounds)
    (hagain : round s = .again t) : Advances (view s) (view t) := by
  have hahead := hforward s h
  rwa [hagain] at hahead

theorem Forward.done (hforward : Forward view stop round) {s t : σ} (h : (view s).InBounds)
    (hdone : round s = .done t) : Reaches (view s) (view t) := by
  have hahead := hforward s h
  rw [hdone] at hahead
  rcases hahead with hadvances | ⟨rfl, -⟩
  · exact hadvances.toReaches
  · exact h.reaches

theorem Advances.left_lt {s t : Scan} (h : Advances s t) : t.left < s.left := by
  have hlt := h.pos_lt
  have hle : t.pos ≤ t.bytes.size := h.inBounds
  rw [left, left, ← h.bytes_eq]
  omega

theorem Forward.reaches_loop (hforward : Forward view stop round) (measure : σ → Nat)
    {s : σ} (h : (view s).InBounds) :
    Reaches (view s) (view (Round.loop measure round s)) := by
  fun_induction Round.loop measure round s with
  | case1 s t hdone => exact hforward.done h hdone
  | case2 s t hagain _ ih =>
      have hadvances := hforward.again h hagain
      exact hadvances.toReaches.trans (ih hadvances.inBounds)
  | case3 s t hagain _ => exact (hforward.again h hagain).toReaches

/-- A loop whose first round is not its last one advances. -/
theorem Forward.advances_loop (hforward : Forward view stop round) (measure : σ → Nat)
    {s t : σ} (h : (view s).InBounds) (hagain : round s = .again t) :
    Advances (view s) (view (Round.loop measure round s)) := by
  have hadvances := hforward.again h hagain
  rw [Round.loop, hagain]
  dsimp only
  split
  · exact hadvances.trans (hforward.reaches_loop measure hadvances.inBounds)
  · exact hadvances

end Forward

/-! ### Faults -/

/-- What a checked scan finds wrong. -/
inductive Fault
  | beyondEnd
  /-- A slice ends before it starts, or beyond the end. -/
  | badSlice
  | noProgress
  /-- A loop goes on although it has had its last round. -/
  | noEnd
  deriving DecidableEq, Repr

abbrev Checked (α : Type) :=
  Except Fault α

namespace Checked

def rest (s : Scan) : Checked Text :=
  if s.pos ≤ s.bytes.size then pure s.ahead else throw .beyondEnd

def startsWith (t : Text) (s : Scan) : Checked Bool := do
  return t.isPrefixOf (← rest s)

def slice (start stop : Nat) (s : Scan) : Checked Text :=
  if start ≤ stop ∧ stop ≤ s.bytes.size then pure (s.slice start stop)
  else throw .badSlice

/-- Rounds one after the other, until one is the last, which must be so within a number of
rounds. -/
def rounds {σ : Type} (view : σ → Scan) (round : σ → Checked (Round σ)) : Nat → σ → Checked σ
  | 0, _ => throw .noEnd
  | n + 1, s => do
      if (view s).bytes.size < (view s).pos then throw .beyondEnd
      match ← round s with
      | .done t => pure t
      | .again t =>
          if (view s).pos < (view t).pos then rounds view round n t else throw .noProgress

/-- Rounds until one is the last: a round for each byte that is left, and one at the end. -/
def loop {σ : Type} (view : σ → Scan) (round : σ → Checked (Round σ)) (s : σ) : Checked σ :=
  rounds view round ((view s).left + 1) s

def whileRound (p : Char → Bool) (s : Scan) : Checked (Round Scan) :=
  match s.peek with
  | none => pure (.done s)
  | some c => if p c then pure (.again { s with pos := s.pos + 1 }) else pure (.done s)

def eatWhile (p : Char → Bool) (s : Scan) : Checked Scan :=
  loop id (whileRound p) s

def eatUntil (c : Char) (s : Scan) : Checked Scan := do
  match (← rest s).findIdx? (· == c) with
  | some i => pure { s with pos := s.pos + i }
  | none => pure { s with pos := s.bytes.size }

def find? (t : Text) : Text → Option Nat
  | [] => none
  | c :: cs => if t.isPrefixOf (c :: cs) then some 0 else (find? t cs).map (· + 1)

def eatThrough (terminator : Text) (s : Scan) : Checked Scan := do
  match find? terminator (← rest s) with
  | some i => pure { s with pos := s.pos + (i + terminator.length) }
  | none => pure { s with pos := s.bytes.size }

variable {s : Scan}

theorem rest_eq (h : s.InBounds) : rest s = pure s.ahead :=
  if_pos h

theorem startsWith_eq (h : s.InBounds) (t : Text) :
    startsWith t s = pure (s.startsWith t) := by
  rw [startsWith, rest_eq h, pure_bind, startsWith_eq_isPrefixOf]

theorem slice_eq {start stop : Nat} (hstart : start ≤ stop) (hstop : stop ≤ s.bytes.size) :
    slice start stop s = pure (s.slice start stop) :=
  if_pos ⟨hstart, hstop⟩

/-- Rounds come to the answer of a loop if they lead ahead, however many more than the
bytes that are left there may be. -/
theorem rounds_eq {σ : Type} {view : σ → Scan} {stop : Char → Bool} {round : σ → Round σ}
    {checked : σ → Checked (Round σ)} (hforward : Forward view stop round)
    (hround : ∀ s, (view s).InBounds → checked s = pure (round s))
    {n : Nat} {s : σ} (h : (view s).InBounds) (hn : (view s).left < n) :
    rounds view checked n s = pure (Round.loop (fun t => (view t).left) round s) := by
  induction n generalizing s with
  | zero => exact absurd hn (Nat.not_lt_zero _)
  | succ n ih =>
      rw [rounds, if_neg (Nat.not_lt.2 h), hround s h, pure_bind]
      cases hs : round s with
      | done t => rw [Round.loop_done hs]
      | again t =>
          have hadvances := hforward.again h hs
          have hleft := hadvances.left_lt
          have hrest := ih hadvances.inBounds (by omega)
          rw [Round.loop_again hs hleft, ← hrest]
          exact if_pos hadvances.pos_lt

theorem loop_eq {σ : Type} {view : σ → Scan} {stop : Char → Bool} {round : σ → Round σ}
    {checked : σ → Checked (Round σ)} (hforward : Forward view stop round)
    (hround : ∀ s, (view s).InBounds → checked s = pure (round s))
    {s : σ} (h : (view s).InBounds) :
    loop view checked s = pure (Round.loop (fun t => (view t).left) round s) :=
  rounds_eq hforward hround h (Nat.lt_succ_self _)

end Checked

/-! ### Runs and terminators -/

theorem forward_whileRound (p : Char → Bool) : Forward id (fun c => !p c) (whileRound p) := by
  intro s h
  unfold whileRound
  split
  · next hpeek => exact ahead_of_peek_none hpeek
  · next c hpeek =>
      split
      · exact advances_bump hpeek Nat.one_pos
      · next hc => exact ahead_of_stop hpeek (by simpa using hc)

theorem InBounds.eatWhile (h : s.InBounds) (p : Char → Bool) : Reaches s (s.eatWhile p) :=
  (forward_whileRound p).reaches_loop left h

theorem advances_eatWhile (h : s.peek = some c) (hc : p c = true) :
    Advances s (s.eatWhile p) := by
  have hround : whileRound p s = .again (s.bump 1) := by
    unfold whileRound
    rw [h]
    exact if_pos hc
  exact (forward_whileRound p).advances_loop left (inBounds_of_peek h) hround

theorem forward_throughRound (terminator : Text) :
    Forward id (fun _ => terminator.isEmpty) (throughRound terminator) := by
  intro s h
  unfold throughRound
  split
  · next hpeek => exact ahead_of_peek_none hpeek
  · next c hpeek =>
      split
      · cases terminator with
        | nil =>
            have hpos : min s.pos s.bytes.size = s.pos := Nat.min_eq_left h
            have hbump : s.bump 0 = s := by rw [Scan.bump, Nat.add_zero, hpos]
            rw [List.length_nil, hbump]
            exact ahead_of_stop hpeek rfl
        | cons d terminator => exact .inl (advances_bump hpeek (Nat.succ_pos _))
      · exact advances_bump hpeek Nat.one_pos

theorem InBounds.eatThrough (h : s.InBounds) (terminator : Text) :
    Reaches s (s.eatThrough terminator) :=
  (forward_throughRound terminator).reaches_loop left h

namespace Checked

theorem eatWhile_eq (h : s.InBounds) (p : Char → Bool) :
    eatWhile p s = pure (s.eatWhile p) := by
  refine loop_eq (forward_whileRound p) (fun s _ => ?_) h
  unfold whileRound Scan.whileRound
  cases hpeek : s.peek with
  | none => rfl
  | some c =>
      rw [bump_one_of_peek hpeek]
      cases hc : p c <;> simp [hc]

theorem eatUntil_eq (h : s.InBounds) (c : Char) : eatUntil c s = pure (s.eatUntil c) := by
  have hlen : (s.ahead.takeWhile (· != c)).length = s.ahead.findIdx (· == c) := by
    rw [List.takeWhile_eq_take_findIdx_not, List.length_take,
      Nat.min_eq_left List.findIdx_le_length]
    exact congrArg (List.findIdx · s.ahead) (funext fun d => Bool.not_not _)
  rw [eatUntil, rest_eq h, pure_bind, Scan.eatUntil, eatWhile_eq_takeWhile, hlen]
  cases hfind : s.ahead.findIdx? (· == c) with
  | none =>
      rw [List.findIdx?_eq_none_iff_findIdx_eq.1 hfind, h.add_length_ahead]
  | some i => rw [(List.findIdx?_eq_some_iff_findIdx_eq.1 hfind).2]

theorem throughLength_eq_find? (terminator t : Text) :
    Lexeme.throughLength terminator t =
      (find? terminator t).elim t.length (· + terminator.length) := by
  induction t with
  | nil => rfl
  | cons c cs ih =>
      rw [Lexeme.throughLength, find?]
      split
      · exact (Nat.zero_add _).symm
      · rw [ih]
        cases find? terminator cs with
        | none => rfl
        | some i => exact Nat.add_right_comm i terminator.length 1

theorem eatThrough_eq (h : s.InBounds) (terminator : Text) :
    eatThrough terminator s = pure (s.eatThrough terminator) := by
  rw [eatThrough, rest_eq h, pure_bind, eatThrough_eq_throughLength, throughLength_eq_find?]
  cases find? terminator s.ahead with
  | none => rw [Option.elim_none, h.add_length_ahead]
  | some i => rfl

end Checked

end Scan

end SourceMarkup
