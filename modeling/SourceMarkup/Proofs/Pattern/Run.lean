import SourceMarkup.Proofs.Lexeme.Basic
import SourceMarkup.Proofs.Pattern.Search
import SourceMarkup.Proofs.Text.Trim

/-!
# Searches for runs of characters

A greedy repetition of a set reads all characters of the set that follow. If it has
to end where the text does, every character that follows must belong to the set. A
lazy repetition stops at the first character that may come after it.
-/

namespace SourceMarkup

namespace Pattern

namespace Regex

open Lexeme

variable {set : CharSet}

theorem matchFrom_more (before : Option Char) (read : Nat) (found : Option Nat)
    (t : Text) :
    matchFrom [more (one set) true] before read found t =
      some (read + runLength set.contains t) := by
  induction t generalizing before read found with
  | nil => simp [matchFrom, leads, runLength]
  | cons c cs ih =>
      cases hc : set.contains c with
      | false => simp [matchFrom, leads, afterReading, runLength, hc]
      | true =>
          have hrun : runLength set.contains (c :: cs) =
              runLength set.contains cs + 1 := by
            simp [runLength, hc]
          rw [hrun, matchFrom]
          simp [leads, afterReading, hc, andThen, List.eraseDups_cons, ih]
          omega

theorem matchFrom_moreToEnd (before : Option Char) (read : Nat) (found : Option Nat)
    (t : Text) :
    matchFrom [seq (more (one set) true) (anchor .textEnd)] before read found t =
      if t.all set.contains then some (read + t.length) else found := by
  induction t generalizing before read found with
  | nil => simp [matchFrom, leads, Anchor.holds]
  | cons c cs ih =>
      cases hc : set.contains c with
      | false => simp [matchFrom, leads, afterReading, Anchor.holds, hc]
      | true =>
          rw [matchFrom]
          simp [leads, afterReading, Anchor.holds, hc, andThen, List.eraseDups_cons, ih,
            Nat.add_assoc, Nat.add_comm 1]

def leadingRun (set : CharSet) : Regex :=
  seq (anchor .textStart) (oneOrMore (one set) true)

def trailingRun (set : CharSet) : Regex :=
  seq (oneOrMore (one set) true) (anchor .textEnd)

theorem matchLength?_leadingRun (set : CharSet) (before : Option Char) (t : Text) :
    matchLength? (leadingRun set) before t =
      if before = none ∧ runLength set.contains t ≠ 0 then
        some (runLength set.contains t)
      else none := by
  cases before with
  | some b =>
      cases t with
      | nil => simp [matchLength?, matchFrom, leadingRun, leads, Anchor.holds]
      | cons c cs =>
          simp [matchLength?, matchFrom, leadingRun, leads, Anchor.holds, afterReading]
  | none =>
      cases t with
      | nil => simp [matchLength?, matchFrom, leadingRun, leads, Anchor.holds, runLength]
      | cons c cs =>
          have hleads : ([leadingRun set].flatMap (leads ⟨none, some c⟩)) =
              [.read set (more (one set) true)] := by
            simp [leadingRun, leads, Anchor.holds, andThen]
          rw [matchLength?, matchFrom, hleads]
          cases hc : set.contains c with
          | false => simp [afterReading, hc, runLength]
          | true =>
              simp [afterReading, hc, runLength, List.eraseDups_cons, matchFrom_more,
                Nat.add_comm 1]

theorem matchLength?_trailingRun (set : CharSet) (before : Option Char) (t : Text) :
    matchLength? (trailingRun set) before t =
      if t ≠ [] ∧ t.all set.contains then some t.length else none := by
  cases t with
  | nil => simp [matchLength?, matchFrom, trailingRun, leads]
  | cons c cs =>
      have hleads : ∀ place, leads place (trailingRun set) =
          [.read set (seq (more (one set) true) (anchor .textEnd))] := by
        intro place
        simp [trailingRun, leads, andThen]
      rw [matchLength?, matchFrom_one hleads, matchFrom_moreToEnd]
      cases hc : set.contains c with
      | false => simp [hc]
      | true => simp [hc, Nat.add_comm 1]

theorem replaceFrom_leadingRun (set : CharSet) (b : Char) (skip : Nat)
    (afterMatch : Bool) (t : Text) :
    (leadingRun set).replaceFrom [] (some b) skip afterMatch t = t.drop skip := by
  have hnone : ∀ b t, matchLength? (leadingRun set) (some b) t = none := by
    intro b t
    rw [matchLength?_leadingRun]
    exact if_neg fun h => Option.some_ne_none b h.1
  induction t generalizing b skip afterMatch with
  | nil => simp [replaceFrom, hnone]
  | cons c cs ih =>
      cases skip with
      | succ n => rw [replaceFrom, ih, List.drop_succ_cons]
      | zero => simp [replaceFrom, hnone, ih]

theorem replaceAll_leadingRun (set : CharSet) (t : Text) :
    (leadingRun set).replaceAll [] t = Text.trimStart set.contains t := by
  rw [Text.trimStart, ← drop_runLength, replaceAll]
  cases t with
  | nil => simp [replaceFrom]
  | cons c cs =>
      rw [replaceFrom, matchLength?_leadingRun]
      cases hrun : runLength set.contains (c :: cs) with
      | zero => simp [replaceFrom_leadingRun]
      | succ n => simp [replaceFrom_leadingRun]

theorem replaceAll_trailingRun (set : CharSet) (t : Text) :
    (trailingRun set).replaceAll [] t = Text.trimEnd set.contains t := by
  rw [replaceAll_eq (fun before t => matchLength?_trailingRun set before t)]
  · induction t with
    | nil => rw [replaceWith_nil, Text.trimEnd_nil]
    | cons c cs ih =>
        cases hall : (c :: cs).all set.contains with
        | true =>
            have hmatch : (if c :: cs ≠ [] ∧ (c :: cs).all set.contains then
                some (c :: cs).length else none) = some (cs.length + 1) :=
              if_pos ⟨List.cons_ne_nil c cs, hall⟩
            rw [replaceWith, hmatch, Text.trimEnd_of_all hall]
            simp [replaceWith_nil]
        | false =>
            rw [replaceWith_cons_none (by simp [hall]), ih, Text.trimEnd_cons hall]
  · exact if_neg fun h => h.1 rfl
  · intro t
    split
    · next h => simpa using h.1
    · exact (Option.some_ne_none 0).symm

/-- The number of characters through the first `last`, if all characters before it
belong to a set. -/
def untilLength? (set : CharSet) (last : Char) : Text → Option Nat
  | [] => none
  | c :: cs =>
      if c = last then some 1
      else if set.contains c then (untilLength? set last cs).map (· + 1)
      else none

theorem isSome_untilLength?_iff {last : Char} {t : Text} :
    (untilLength? set last t).isSome ↔
      ∃ body rest, t = body ++ last :: rest ∧ ∀ c ∈ body, set.contains c = true := by
  induction t with
  | nil => simp [untilLength?]
  | cons c cs ih =>
      rw [untilLength?]
      by_cases hlast : c = last
      · subst hlast
        rw [if_pos rfl]
        exact ⟨fun _ => ⟨[], cs, rfl, List.forall_mem_nil _⟩, fun _ => rfl⟩
      rw [if_neg hlast]
      constructor
      · intro hsome
        split at hsome
        · next hc =>
            rw [Option.isSome_map] at hsome
            obtain ⟨body, rest, rfl, hbody⟩ := ih.1 hsome
            exact ⟨c :: body, rest, rfl, List.forall_mem_cons.2 ⟨hc, hbody⟩⟩
        · contradiction
      · rintro ⟨body, rest, hsplit, hbody⟩
        cases body with
        | nil => exact absurd (List.cons.inj hsplit).1 hlast
        | cons d ds =>
            obtain ⟨rfl, hcs⟩ := List.cons.inj hsplit
            obtain ⟨hc, hds⟩ := List.forall_mem_cons.1 hbody
            rw [if_pos hc, Option.isSome_map]
            exact ih.2 ⟨ds, rest, hcs, hds⟩

/-- A lazy repetition of a set, and the character after it. -/
def lazyThen (set : CharSet) (last : Char) : Regex :=
  seq (alt empty (oneOrMore (one set) false)) (one (.single last))

def lazyRest (set : CharSet) (last : Char) : Regex :=
  seq (more (one set) false) (one (.single last))

theorem leads_lazyThen (set : CharSet) (last : Char) (place : Place) :
    leads place (lazyThen set last) =
      [.read (.single last) empty, .read set (lazyRest set last)] := by
  simp [lazyThen, lazyRest, leads, andThen]

theorem leads_lazyRest (set : CharSet) (last : Char) (place : Place) :
    leads place (lazyRest set last) =
      [.read (.single last) empty, .read set (lazyRest set last)] := by
  simp [lazyRest, leads, andThen]

theorem matchFrom_lazy {regex : Regex} {last : Char}
    (hleads : ∀ place, leads place regex =
      [.read (.single last) empty, .read set (lazyRest set last)])
    (before : Option Char) (read : Nat) (found : Option Nat) (t : Text) :
    matchFrom [regex] before read found t =
      match untilLength? set last t with
      | some n => some (read + n)
      | none => found := by
  induction t generalizing regex before read found with
  | nil => simp [matchFrom, hleads, untilLength?]
  | cons c cs ih =>
      rw [matchFrom]
      simp only [List.flatMap_cons, List.flatMap_nil, hleads, List.append_nil]
      by_cases hlast : c = last
      · subst hlast
        cases hc : set.contains c with
        | true =>
            simp [afterReading, CharSet.contains, hc, List.eraseDups_cons, lazyRest,
              matchFrom_empty_cons, untilLength?]
        | false =>
            simp [afterReading, CharSet.contains, hc, List.eraseDups_cons,
              matchFrom_empty_cons, untilLength?]
      · cases hc : set.contains c with
        | true =>
            simp [afterReading, CharSet.contains, hc, hlast, List.eraseDups_cons,
              untilLength?, ih (leads_lazyRest set last)]
            cases untilLength? set last cs with
            | none => rfl
            | some n => simp [Nat.add_assoc, Nat.add_comm 1]
        | false =>
            simp [afterReading, CharSet.contains, hc, hlast, untilLength?]

end Regex

end Pattern

end SourceMarkup
