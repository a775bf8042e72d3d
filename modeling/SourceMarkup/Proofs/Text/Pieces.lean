import SourceMarkup.Text.Basic

/-!
# Reading piece by piece

References in markup and escapes in forms are read in one way. A row of symbols is cut into
pieces from its start, and each piece gives one value. A piece may begin with a marker, but
holds none behind its first symbol, so the pieces meet every marker of the row. A marker
that something bad follows begins no piece, and reading fails there.

`Reads` collects what a reader has to do for this. Its outcome is then the values of the
pieces if no marker is bad, and the failure at the first bad one otherwise.
-/

namespace SourceMarkup

namespace Pieces

variable {α β ε : Type} {marker : α} {Bad : List α → Prop}

/-- The marker after `before` is bad, as it is told from what follows it. -/
def BadAt (marker : α) (Bad : List α → Prop) (t before : List α) : Prop :=
  ∃ rest, t = before ++ marker :: rest ∧ Bad rest

/-- The marker after `before` is the first that is bad. -/
def FirstBadAt (marker : α) (Bad : List α → Prop) (t before : List α) : Prop :=
  BadAt marker Bad t before ∧
    ∀ before', BadAt marker Bad t before' → before.length ≤ before'.length

/-- A row of pieces with their values, where `Piece tail piece value` says what is a piece
in front of `tail`. -/
inductive Row (Piece : List α → List α → β → Prop) : List α → List β → Prop
  | nil : Row Piece [] []
  | cons {piece tail : List α} {out : List β} {b : β} (hpiece : Piece tail piece b)
      (htail : Row Piece tail out) : Row Piece (piece ++ tail) (b :: out)

/-- There is no marker behind the first symbol of `piece`, and that is no bad one in front
of `tail`. -/
def Clean (marker : α) (Bad : List α → Prop) (tail piece : List α) : Prop :=
  ∃ a w, piece = a :: w ∧ marker ∉ w ∧ (a = marker → ¬ Bad (w ++ tail))

/-- A bad marker lies behind a piece, never in it. -/
theorem badAt_append_iff {tail piece before : List α} (h : Clean marker Bad tail piece) :
    BadAt marker Bad (piece ++ tail) before ↔
      ∃ front, before = piece ++ front ∧ BadAt marker Bad tail front := by
  obtain ⟨a, w, rfl, hw, ha⟩ := h
  constructor
  · rintro ⟨rest, hsplit, hrest⟩
    cases before with
    | nil =>
        obtain ⟨rfl, rfl⟩ := List.cons.inj hsplit
        exact absurd hrest (ha rfl)
    | cons b before =>
        obtain ⟨rfl, htail⟩ := List.cons.inj hsplit
        rcases List.append_eq_append_iff.1 htail with ⟨front, rfl, hfront⟩ | ⟨v, hv, hrest'⟩
        · exact ⟨front, rfl, rest, hfront, hrest⟩
        · cases v with
          | nil =>
              rw [List.append_nil] at hv
              exact ⟨[], by rw [hv, List.append_nil], rest, hrest'.symm, hrest⟩
          | cons x v =>
              obtain ⟨rfl, -⟩ := List.cons.inj hrest'
              exact absurd (hv ▸ List.mem_append_right before List.mem_cons_self) hw
  · rintro ⟨front, rfl, rest, rfl, hrest⟩
    exact ⟨rest, by rw [List.append_assoc], hrest⟩

theorem FirstBadAt.append {tail piece before : List α} (hpiece : Clean marker Bad tail piece)
    (h : FirstBadAt marker Bad tail before) :
    FirstBadAt marker Bad (piece ++ tail) (piece ++ before) := by
  refine ⟨(badAt_append_iff hpiece).2 ⟨before, rfl, h.1⟩, ?_⟩
  intro before' hbad
  obtain ⟨front, rfl, hfront⟩ := (badAt_append_iff hpiece).1 hbad
  rw [List.length_append, List.length_append]
  exact Nat.add_le_add_left (h.2 front hfront) _

/-- There is one first bad marker. -/
theorem FirstBadAt.unique {t b b' rest rest' : List α} (h : FirstBadAt marker Bad t b)
    (h' : FirstBadAt marker Bad t b') (hrest : t = b ++ marker :: rest)
    (hrest' : t = b' ++ marker :: rest') : b = b' ∧ rest = rest' := by
  have hlength : b.length = b'.length := Nat.le_antisymm (h.2 _ h'.1) (h'.2 _ h.1)
  obtain ⟨hb, hcons⟩ := List.append_inj (hrest.symm.trans hrest') hlength
  exact ⟨hb, List.tail_eq_of_cons_eq hcons⟩

/-- A reader goes over pieces, where its first argument is the offset of the row. Every row
starts with a piece or with a bad marker. A piece gives its value and moves the offset by
its size, and at a bad marker the reader fails. -/
structure Reads (marker : α) (Bad : List α → Prop) (Piece : List α → List α → β → Prop)
    (size : List α → Nat) (read : Nat → List α → Except ε (List β)) : Prop where
  size_append : ∀ u v, size (u ++ v) = size u + size v
  clean : ∀ {tail piece b}, Piece tail piece b → Clean marker Bad tail piece
  cut : ∀ a t, (∃ piece tail b, a :: t = piece ++ tail ∧ Piece tail piece b) ∨
    a = marker ∧ Bad t
  nil : ∀ offset, read offset [] = .ok []
  append : ∀ {tail piece b}, Piece tail piece b → ∀ offset,
    read offset (piece ++ tail) = (read (offset + size piece) tail).map (b :: ·)
  bad : ∀ {rest}, Bad rest → ∀ offset, ∃ e, read offset (marker :: rest) = .error e

namespace Reads

variable {Piece : List α → List α → β → Prop} {size : List α → Nat}
  {read : Nat → List α → Except ε (List β)}

theorem size_nil (h : Reads marker Bad Piece size read) : size [] = 0 := by
  have hnil := h.size_append [] []
  rw [List.append_nil] at hnil
  omega

theorem of_row (h : Reads marker Bad Piece size read) {t : List α} {out : List β}
    (hrow : Row Piece t out) (offset : Nat) : read offset t = .ok out := by
  induction hrow generalizing offset with
  | nil => exact h.nil offset
  | cons hpiece htail ih =>
      rw [h.append hpiece, ih]
      rfl

/-- A reader reads a row to its end, unless it meets a bad marker. The induction goes from
piece to piece. -/
theorem outcome (h : Reads marker Bad Piece size read) (offset : Nat) (t : List α) :
    (∃ out, Row Piece t out ∧ ∀ before, ¬ BadAt marker Bad t before) ∨
      ∃ before rest, FirstBadAt marker Bad t before ∧ t = before ++ marker :: rest ∧
        Bad rest ∧ read offset t = read (offset + size before) (marker :: rest) := by
  cases t with
  | nil =>
      refine .inl ⟨[], .nil, ?_⟩
      rintro before ⟨rest, hnil, -⟩
      simp at hnil
  | cons a t =>
      rcases h.cut a t with ⟨piece, tail, b, hsplit, hpiece⟩ | ⟨rfl, hbad⟩
      · have hclean := h.clean hpiece
        have hlt : tail.length < (a :: t).length := by
          obtain ⟨c, w, rfl, -⟩ := hclean
          rw [hsplit, List.length_append, List.length_cons]
          omega
        rw [hsplit]
        rcases outcome h (offset + size piece) tail with
          ⟨out, hout, hnone⟩ | ⟨before, rest, hfirst, rfl, hbad, hread⟩
        · refine .inl ⟨b :: out, .cons hpiece hout, fun before hbad => ?_⟩
          obtain ⟨front, -, hfront⟩ := (badAt_append_iff hclean).1 hbad
          exact hnone front hfront
        · refine .inr ⟨piece ++ before, rest, hfirst.append hclean,
            (List.append_assoc _ _ _).symm, hbad, ?_⟩
          obtain ⟨e, he⟩ := h.bad hbad (offset + size piece + size before)
          rw [h.append hpiece, hread, h.size_append, ← Nat.add_assoc, he]
          rfl
      · refine .inr ⟨[], t, ⟨⟨t, rfl, hbad⟩, fun _ _ => Nat.zero_le _⟩, rfl, hbad, ?_⟩
        rw [h.size_nil]
        rfl
  termination_by t.length
  decreasing_by exact hlt

end Reads

end Pieces

end SourceMarkup
