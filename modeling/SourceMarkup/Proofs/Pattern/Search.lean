import SourceMarkup.Pattern.Search

/-!
# Searches that look ahead only

Most patterns find at a place what the text after it tells, wherever the place is.
Replacing their matches is then a function of the text alone: `replaceWith` goes
from match to match. `literalThen` is a pattern that begins with a fixed text, and
a search with it is a search with the rest behind that text.
-/

namespace SourceMarkup

namespace Pattern

/-- A text with its matches replaced, where `length?` tells the length of the match
at the start of a text. -/
def replaceWith (length? : Text → Option Nat) (replacement : Text) : Text → Text
  | [] => []
  | c :: cs =>
      match length? (c :: cs) with
      | some (n + 1) => replacement ++ replaceWith length? replacement (cs.drop n)
      | _ => c :: replaceWith length? replacement cs
  termination_by t => t.length
  decreasing_by all_goals simp only [List.length_cons, List.length_drop]; omega

section ReplaceWith

variable {length? : Text → Option Nat} {replacement : Text}

theorem replaceWith_nil : replaceWith length? replacement [] = [] := by
  rw [replaceWith]

theorem replaceWith_cons_none {c : Char} {cs : Text} (h : length? (c :: cs) = none) :
    replaceWith length? replacement (c :: cs) =
      c :: replaceWith length? replacement cs := by
  rw [replaceWith]
  simp [h]

theorem replaceWith_match {w t : Text} (hw : w ≠ [])
    (h : length? (w ++ t) = some w.length) :
    replaceWith length? replacement (w ++ t) =
      replacement ++ replaceWith length? replacement t := by
  cases w with
  | nil => exact absurd rfl hw
  | cons c cs =>
      rw [List.cons_append] at h ⊢
      rw [replaceWith, h]
      simp

/-- Where no match starts, nothing is replaced. -/
theorem replaceWith_append {u : Text}
    (h : ∀ v w t, u = v ++ w → w ≠ [] → length? (w ++ t) = none) (t : Text) :
    replaceWith length? replacement (u ++ t) =
      u ++ replaceWith length? replacement t := by
  induction u with
  | nil => rfl
  | cons c cs ih =>
      have hc : length? (c :: (cs ++ t)) = none :=
        h [] (c :: cs) t rfl (List.cons_ne_nil c cs)
      rw [List.cons_append, replaceWith_cons_none hc, ih, List.cons_append]
      intro v w t hcs hw
      exact h (c :: v) w t (by rw [hcs, List.cons_append]) hw

end ReplaceWith

namespace Regex

/-- A search that looks ahead only replaces what it finds from left to right. -/
theorem replaceFrom_eq {regex : Regex} {length? : Text → Option Nat}
    (hlength : ∀ before t, regex.matchLength? before t = length? t)
    (hnil : length? [] = none) (hzero : ∀ t, length? t ≠ some 0)
    (replacement : Text) (before : Option Char) (skip : Nat) (afterMatch : Bool)
    (t : Text) :
    regex.replaceFrom replacement before skip afterMatch t =
      replaceWith length? replacement (t.drop skip) := by
  induction t generalizing before skip afterMatch with
  | nil => simp [replaceFrom, hlength, hnil, replaceWith_nil]
  | cons c cs ih =>
      cases skip with
      | succ n => rw [replaceFrom, ih, List.drop_succ_cons]
      | zero =>
          rw [replaceFrom, hlength, List.drop_zero]
          cases hmatch : length? (c :: cs) with
          | none => rw [replaceWith_cons_none hmatch]; simp [ih]
          | some n =>
              cases n with
              | zero => exact absurd hmatch (hzero _)
              | succ n => rw [replaceWith, hmatch]; simp [ih]

theorem replaceAll_eq {regex : Regex} {length? : Text → Option Nat}
    (hlength : ∀ before t, regex.matchLength? before t = length? t)
    (hnil : length? [] = none) (hzero : ∀ t, length? t ≠ some 0)
    (replacement t : Text) :
    regex.replaceAll replacement t = replaceWith length? replacement t :=
  replaceFrom_eq hlength hnil hzero replacement none 0 false t

/-! ### Patterns that begin with a fixed text -/

def literalThen (w : Text) (regex : Regex) : Regex :=
  w.foldr (fun c rest => (one (.single c)).andThen rest) regex

theorem leads_literalThen_cons (place : Place) (c : Char) (cs : Text) (regex : Regex) :
    leads place (literalThen (c :: cs) regex) =
      [.read (.single c) (literalThen cs regex)] := by
  rw [literalThen, List.foldr_cons, ← literalThen, andThen, if_neg (by simp)]
  split
  · next hrest => rw [hrest]; rfl
  · rfl

theorem matchFrom_one {regex rest : Regex} {set : CharSet}
    (hleads : ∀ place, leads place regex = [.read set rest])
    (before : Option Char) (read : Nat) (found : Option Nat) (c : Char) (cs : Text) :
    matchFrom [regex] before read found (c :: cs) =
      if set.contains c then matchFrom [rest] (some c) (read + 1) found cs
      else found := by
  rw [matchFrom]
  simp only [List.flatMap_cons, List.flatMap_nil, hleads, List.append_nil, afterReading]
  cases set.contains c with
  | false => simp
  | true => simp [List.eraseDups_cons]

theorem matchFrom_literalThen (w : Text) (regex : Regex) (before : Option Char)
    (read : Nat) (found : Option Nat) (t : Text) :
    matchFrom [literalThen w regex] before read found t =
      if w.isPrefixOf t then
        matchFrom [regex] (w.getLast?.or before) (read + w.length) found (t.drop w.length)
      else found := by
  induction w generalizing before read t with
  | nil => rfl
  | cons c cs ih =>
      cases t with
      | nil => simp [matchFrom, leads_literalThen_cons]
      | cons d ds =>
          rw [matchFrom_one fun place => leads_literalThen_cons place c cs regex, ih,
            List.isPrefixOf_cons_cons]
          by_cases hd : d = c
          · subst hd
            simp [CharSet.contains, List.getLast?_cons, Nat.add_assoc, Nat.add_comm 1]
          · simp [CharSet.contains, hd, Ne.symm hd]

/-- What is done weighs more than what comes after it. -/
theorem matchFrom_empty_cons (rests : List Regex) (before : Option Char) (read : Nat)
    (found : Option Nat) (t : Text) :
    matchFrom (empty :: rests) before read found t = some read := by
  cases t with
  | nil => simp [matchFrom, leads]
  | cons c cs => simp [matchFrom, leads, afterReading]

def literalLength? (w t : Text) : Option Nat :=
  if w.isPrefixOf t then some w.length else none

theorem isSome_literalLength?_iff {w t : Text} : (literalLength? w t).isSome ↔ w <+: t := by
  rw [literalLength?, ← List.isPrefixOf_iff_prefix]
  cases w.isPrefixOf t <;> simp

theorem matchLength?_literal (w : Text) (before : Option Char) (t : Text) :
    matchLength? (literalThen w empty) before t = literalLength? w t := by
  rw [matchLength?, matchFrom_literalThen, matchFrom_empty_cons, Nat.zero_add,
    literalLength?]

/-- Of two regular expressions that begin with different characters, the next
character decides. -/
theorem matchFrom_two {c d : Char} (hcd : c ≠ d) (w v : Text) (x y : Regex)
    (before : Option Char) (read : Nat) (found : Option Nat) (t : Text) :
    matchFrom [literalThen (c :: w) x, literalThen (d :: v) y] before read found t =
      if t.head? = some c then matchFrom [literalThen (c :: w) x] before read found t
      else matchFrom [literalThen (d :: v) y] before read found t := by
  cases t with
  | nil => simp [matchFrom, leads_literalThen_cons]
  | cons e es =>
      by_cases hc : e = c
      · subst hc
        simp [matchFrom, leads_literalThen_cons, afterReading, CharSet.contains, hcd]
      · by_cases hd : e = d
        · subst hd
          simp [matchFrom, leads_literalThen_cons, afterReading, CharSet.contains, hc]
        · simp [matchFrom, leads_literalThen_cons, afterReading, CharSet.contains, hc, hd]

/-- Of two alternatives that differ in their second character, it decides. -/
theorem matchFrom_alt {c d e : Char} (hde : d ≠ e) (w v : Text) (x y : Regex)
    (before : Option Char) (read : Nat) (found : Option Nat) (t : Text) :
    matchFrom [alt (literalThen (c :: d :: w) x) (literalThen (c :: e :: v) y)]
        before read found t =
      if t.tail.head? = some d then
        matchFrom [literalThen (c :: d :: w) x] before read found t
      else matchFrom [literalThen (c :: e :: v) y] before read found t := by
  have hleads : ∀ place,
      leads place (alt (literalThen (c :: d :: w) x) (literalThen (c :: e :: v) y)) =
        [.read (.single c) (literalThen (d :: w) x),
          .read (.single c) (literalThen (e :: v) y)] := by
    intro place
    rw [leads, leads_literalThen_cons, leads_literalThen_cons]
    rfl
  have hne : literalThen (d :: w) x ≠ literalThen (e :: v) y := by
    intro h
    have hplace := congrArg (leads ⟨none, none⟩) h
    rw [leads_literalThen_cons, leads_literalThen_cons] at hplace
    simp [hde] at hplace
  cases t with
  | nil => simp [matchFrom, hleads, leads_literalThen_cons]
  | cons a as =>
      rw [matchFrom_one fun place => leads_literalThen_cons place c (d :: w) x,
        matchFrom_one fun place => leads_literalThen_cons place c (e :: v) y, matchFrom]
      simp only [List.flatMap_cons, List.flatMap_nil, hleads, List.append_nil,
        afterReading]
      cases hc : (CharSet.single c).contains a with
      | false => simp
      | true => simp [List.eraseDups_cons, hne.symm, matchFrom_two hde]

end Regex

end Pattern

end SourceMarkup
