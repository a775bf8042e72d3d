import SourceMarkup.Proofs.Markup.Finding
import SourceMarkup.Proofs.Text.Pieces

/-!
# Texts with their references replaced

Decoding goes through a text piece by piece: a reference is a piece, and so is every
character outside of one. `Replaced` says what the pieces of a text are written as,
and `MalformedAt` where a text has a malformed reference, wherever it is. No reference
holds an ampersand, so decoding reads these pieces, and the main statement is that it
gives the replaced text unless a reference is malformed, and the error of the first one
that is otherwise.
-/

namespace SourceMarkup

open Pieces Text

namespace Markup

namespace Reference

/-- A piece at the start of a text, where `tail` is the rest, and the character that
is written for it. -/
inductive Piece (tail : Text) : Text → Char → Prop
  | reference {c : Char} {body : Text}
      (h : Begins (body ++ ';' :: tail) (.reference c body)) :
      Piece tail ('&' :: body ++ [';']) c
  | unknownName (h : Begins tail .unknownName) : Piece tail ['&'] '&'
  | bare (h : Begins tail .bare) : Piece tail ['&'] '&'
  | other {c : Char} (h : c ≠ '&') : Piece tail [c] c

abbrev Replaced (t out : Text) : Prop :=
  Row Piece t out

/-- What an ampersand is followed by that begins a malformed reference. -/
def Malformed (rest : Text) : Prop :=
  ∃ error, Begins rest (.malformed error)

/-- The ampersand after `before` begins a malformed reference. -/
def MalformedAt (t before : Text) (error : Nat → ReferenceError) : Prop :=
  BadAt '&' (Begins · (.malformed error)) t before

def FirstMalformedAt (t before : Text) (error : Nat → ReferenceError) : Prop :=
  MalformedAt t before error ∧
    ∀ before' error', MalformedAt t before' error' → before.length ≤ before'.length

theorem badAt_malformed_iff {t before : Text} :
    BadAt '&' Malformed t before ↔ ∃ error, MalformedAt t before error := by
  constructor
  · rintro ⟨rest, hsplit, error, hrest⟩
    exact ⟨error, rest, hsplit, hrest⟩
  · rintro ⟨error, rest, hsplit, hrest⟩
    exact ⟨rest, hsplit, error, hrest⟩

theorem firstMalformedAt_iff {t before : Text} {error : Nat → ReferenceError} :
    FirstMalformedAt t before error ↔
      MalformedAt t before error ∧ FirstBadAt '&' Malformed t before := by
  constructor
  · rintro ⟨hmalformed, hfirst⟩
    refine ⟨hmalformed, badAt_malformed_iff.2 ⟨error, hmalformed⟩, fun before' hbad => ?_⟩
    obtain ⟨error', herror'⟩ := badAt_malformed_iff.1 hbad
    exact hfirst before' error' herror'
  · rintro ⟨hmalformed, hfirst⟩
    exact ⟨hmalformed, fun before' error' h => hfirst.2 before' (badAt_malformed_iff.2 ⟨error', h⟩)⟩

/-- No reference holds an ampersand, and what is a piece begins no malformed reference. -/
theorem Piece.clean {tail piece : Text} {c : Char} (h : Piece tail piece c) :
    Clean '&' Malformed tail piece := by
  cases h with
  | @reference c body h =>
      refine ⟨'&', body ++ [';'], rfl, by simp [h.not_mem_body], fun _ ⟨error, herror⟩ => ?_⟩
      rw [List.append_assoc, List.singleton_append] at herror
      exact Finding.noConfusion (h.unique herror)
  | unknownName h =>
      exact ⟨'&', [], rfl, List.not_mem_nil, fun _ ⟨error, herror⟩ =>
        Finding.noConfusion (h.unique herror)⟩
  | bare h =>
      exact ⟨'&', [], rfl, List.not_mem_nil, fun _ ⟨error, herror⟩ =>
        Finding.noConfusion (h.unique herror)⟩
  | @other c h =>
      exact ⟨c, [], rfl, List.not_mem_nil, fun hc => absurd hc h⟩

/-- A text starts with a piece, or with an ampersand that begins a malformed
reference. -/
theorem exists_piece (c : Char) (cs : Text) :
    (∃ piece tail d, c :: cs = piece ++ tail ∧ Piece tail piece d) ∨
      (c = '&' ∧ Malformed cs) := by
  by_cases hc : c = '&'
  · subst hc
    obtain ⟨finding, h⟩ := exists_begins cs
    cases finding with
    | reference d body =>
        obtain ⟨-, -, tail, rfl⟩ := h.hasBody
        exact Or.inl ⟨_, tail, d, by simp, .reference h⟩
    | malformed error => exact Or.inr ⟨rfl, error, h⟩
    | unknownName => exact Or.inl ⟨['&'], cs, '&', rfl, .unknownName h⟩
    | bare => exact Or.inl ⟨['&'], cs, '&', rfl, .bare h⟩
  · exact Or.inl ⟨[c], cs, c, rfl, .other hc⟩

/-! ### Decoding piece by piece -/

theorem decodeFrom_ampersand {rest : Text} {finding : Finding} (h : Begins rest finding)
    (offset : Nat) :
    decodeFrom offset ('&' :: rest) =
      match finding.result offset with
      | .error e => .error e
      | .ok none => (decodeFrom (offset + 1) rest).map ('&' :: ·)
      | .ok (some (d, n)) =>
          (decodeFrom (offset + 1 + byteLength (rest.take n)) (rest.drop n)).map
            (d :: ·) := by
  rw [← read_eq_of_begins h, decodeFrom]
  exact if_pos rfl

theorem decodeFrom_append {tail piece : Text} {c : Char} (h : Piece tail piece c)
    (offset : Nat) :
    decodeFrom offset (piece ++ tail) =
      (decodeFrom (offset + piece.byteLength) tail).map (c :: ·) := by
  cases h with
  | @reference c body h =>
      have hbody : body ++ ';' :: tail = (body ++ [';']) ++ tail := by simp
      have hlength : body.length + 1 = (body ++ [';']).length := by simp
      rw [List.cons_append, List.cons_append, ← hbody, decodeFrom_ampersand h]
      simp only [Finding.result]
      rw [hbody, hlength, List.take_left, List.drop_left, Nat.add_assoc]
      rfl
  | unknownName h => exact decodeFrom_ampersand h offset
  | bare h => exact decodeFrom_ampersand h offset
  | other h => rw [List.singleton_append, decodeFrom, if_neg h]; rfl

theorem reads_decodeFrom : Reads '&' Malformed Piece byteLength decodeFrom where
  size_append := byteLength_append
  clean := Piece.clean
  cut := exists_piece
  nil offset := by rw [decodeFrom]
  append := decodeFrom_append
  bad := fun ⟨_, h⟩ offset => ⟨_, decodeFrom_ampersand h offset⟩

theorem FirstMalformedAt.unique {t b b' : Text} {error error' : Nat → ReferenceError}
    (h : FirstMalformedAt t b error) (h' : FirstMalformedAt t b' error') :
    b = b' ∧ error = error' := by
  obtain ⟨⟨rest, hsplit, hrest⟩, hfirst⟩ := firstMalformedAt_iff.1 h
  obtain ⟨⟨rest', hsplit', hrest'⟩, hfirst'⟩ := firstMalformedAt_iff.1 h'
  obtain ⟨rfl, rfl⟩ := hfirst.unique hfirst' hsplit hsplit'
  exact ⟨rfl, Finding.malformed.inj (hrest.unique hrest')⟩

/-- Every ampersand begins exactly one thing. Decoding fails if and only if one of a
text begins a malformed reference, with the error of the first such and its byte
offset; otherwise the references are replaced and all else is kept. -/
theorem decode_eq_iff (t : Text) :
    (∀ rest, ∃! finding, Begins rest finding) ∧
      ((∃ e, decode t = .error e) ↔ ∃ before error, MalformedAt t before error) ∧
      (∀ e, decode t = .error e ↔
        ∃ before error, FirstMalformedAt t before error ∧ e = error before.byteLength) ∧
      ∀ out, decode t = .ok out ↔
        Replaced t out ∧ ∀ before error, ¬ MalformedAt t before error := by
  refine ⟨fun rest => ?_, ?_⟩
  · obtain ⟨finding, h⟩ := exists_begins rest
    exact ⟨finding, h, fun other hother => hother.unique h⟩
  rcases reads_decodeFrom.outcome 0 t with
    ⟨out, hout, hnobad⟩ | ⟨before, rest, hfirstbad, hsplit, ⟨error, hrest⟩, hread⟩
  · have hdecode : decode t = .ok out := reads_decodeFrom.of_row hout 0
    have hnone : ∀ before error, ¬ MalformedAt t before error :=
      fun before error h => hnobad before (badAt_malformed_iff.2 ⟨error, h⟩)
    simp only [hdecode]
    refine ⟨?_, ?_, ?_⟩
    · simpa using hnone
    · intro e
      simp only [reduceCtorEq, false_iff]
      rintro ⟨before, error, hfirst, -⟩
      exact hnone before error hfirst.1
    · intro out'
      constructor
      · intro h
        exact ⟨Except.ok.inj h ▸ hout, hnone⟩
      · rintro ⟨hout', -⟩
        exact hdecode.symm.trans (reads_decodeFrom.of_row hout' 0)
  · have hfirst : FirstMalformedAt t before error :=
      firstMalformedAt_iff.2 ⟨⟨rest, hsplit, hrest⟩, hfirstbad⟩
    have hdecode : decode t = .error (error (byteLength before)) := by
      rw [decode, hread, Nat.zero_add, decodeFrom_ampersand hrest]
      rfl
    simp only [hdecode]
    refine ⟨?_, ?_, ?_⟩
    · exact ⟨fun _ => ⟨before, error, hfirst.1⟩, fun _ => ⟨_, rfl⟩⟩
    · intro e
      constructor
      · intro h
        exact ⟨before, error, hfirst, (Except.error.inj h).symm⟩
      · rintro ⟨before', error', hfirst', rfl⟩
        obtain ⟨rfl, rfl⟩ := hfirst.unique hfirst'
        rfl
    · intro out
      simp only [reduceCtorEq, false_iff]
      rintro ⟨-, hnone⟩
      exact hnone before error hfirst.1

end Reference

end Markup

end SourceMarkup
