import Mathlib.Logic.Function.Iterate
import SourceMarkup.Pattern.Rule
import SourceMarkup.Proofs.Text.Slice

/-!
# Rules that shorten

A rule shortens if every match of its pattern has more bytes than the replacement. Such a
rule leaves a text as it is where its pattern matches nowhere, and makes every other text
shorter. The same holds of several such rules in turn: a rule that matches in the text is
not kept from it by rules before it that do not, and no rule after it makes up for what it
took away.

So applying the rules again and again comes to rest after at most as many steps as the
text has bytes, at a text in which no rule matches.
-/

namespace SourceMarkup

namespace Pattern

namespace Regex

/-- Whether a regular expression matches at some place in a text that follows `before`. -/
def MatchesAfter (regex : Regex) (before : Option Char) (t : Text) : Prop :=
  ∃ u v, t = u ++ v ∧ (regex.matchLength? (u.getLast?.or before) v).isSome

/-- Whether every match of a regular expression has more bytes than a replacement. -/
def Shortens (regex : Regex) (replacement : Text) : Prop :=
  ∀ before t n, regex.matchLength? before t = some n →
    Text.byteLength replacement < Text.byteLength (t.take n)

variable {regex : Regex} {replacement : Text} {before : Option Char}

theorem matchesAfter_nil :
    regex.MatchesAfter before [] ↔ (regex.matchLength? before []).isSome := by
  constructor
  · rintro ⟨u, v, huv, hmatch⟩
    obtain ⟨rfl, rfl⟩ := List.append_eq_nil_iff.1 huv.symm
    exact hmatch
  · exact fun hmatch => ⟨[], [], rfl, hmatch⟩

theorem matchesAfter_cons {c : Char} {cs : Text} :
    regex.MatchesAfter before (c :: cs) ↔
      (regex.matchLength? before (c :: cs)).isSome ∨ regex.MatchesAfter (some c) cs := by
  have hlast : ∀ u : Text, (c :: u).getLast?.or before = u.getLast?.or (some c) := by
    intro u
    rw [List.getLast?_cons]
    cases u.getLast? <;> rfl
  constructor
  · rintro ⟨u, v, huv, hmatch⟩
    cases u with
    | nil =>
        rw [List.nil_append] at huv
        subst huv
        exact .inl hmatch
    | cons d ds =>
        obtain ⟨rfl, rfl⟩ := List.cons.inj huv
        exact .inr ⟨ds, v, rfl, hlast ds ▸ hmatch⟩
  · rintro (hmatch | ⟨u, v, rfl, hmatch⟩)
    · exact ⟨[], c :: cs, rfl, hmatch⟩
    · exact ⟨c :: u, v, rfl, (hlast u).symm ▸ hmatch⟩

/-- A search that looks ahead only matches wherever it matches some rest of the text. -/
theorem matchesAfter_iff {length? : Text → Option Nat}
    (h : ∀ before t, regex.matchLength? before t = length? t) :
    regex.MatchesAfter before t ↔ ∃ v, v <:+ t ∧ (length? v).isSome := by
  constructor
  · rintro ⟨u, v, rfl, hmatch⟩
    exact ⟨v, List.suffix_append u v, h _ v ▸ hmatch⟩
  · rintro ⟨v, ⟨u, rfl⟩, hmatch⟩
    exact ⟨u, v, rfl, (h _ v).symm ▸ hmatch⟩

/-- A search that finds nothing in an empty text, and nowhere an empty match, shortens a
text by taking its matches out. -/
theorem shortens_nil (hnil : ∀ before, regex.matchLength? before [] = none)
    (hzero : ∀ before t, regex.matchLength? before t ≠ some 0) : regex.Shortens [] := by
  intro before t n hmatch
  refine Text.byteLength_pos fun htake => ?_
  rcases List.take_eq_nil_iff.1 htake with rfl | rfl
  · exact hzero before t hmatch
  · rw [hnil] at hmatch
    contradiction

/-- No match of a regular expression that shortens is empty. -/
theorem Shortens.ne_zero (h : regex.Shortens replacement) (before : Option Char)
    (t : Text) : regex.matchLength? before t ≠ some 0 :=
  fun hmatch => Nat.not_lt_zero _ (h before t 0 hmatch)

theorem Shortens.eq_none (h : regex.Shortens replacement) (before : Option Char) :
    regex.matchLength? before [] = none := by
  cases hmatch : regex.matchLength? before [] with
  | none => rfl
  | some n =>
      have hlt := h before [] n hmatch
      rw [List.take_nil] at hlt
      exact absurd hlt (Nat.not_lt_zero _)

/-- What a match of the start of a text leaves is shorter by more than the replacement. -/
theorem Shortens.lt_of_match (h : regex.Shortens replacement) {t : Text} {n : Nat}
    (hmatch : regex.matchLength? before t = some n) :
    Text.byteLength replacement + Text.byteLength (t.drop n) < Text.byteLength t := by
  have hlt := h before t n hmatch
  have hsplit : Text.byteLength (t.take n) + Text.byteLength (t.drop n) =
      Text.byteLength t := by
    rw [← Text.byteLength_append, List.take_append_drop]
  omega

theorem replaceFrom_of_not_matches (h : ¬ regex.MatchesAfter before t)
    (afterMatch : Bool) (replacement : Text) :
    regex.replaceFrom replacement before 0 afterMatch t = t := by
  induction t generalizing before afterMatch with
  | nil =>
      rw [matchesAfter_nil] at h
      simp [replaceFrom, h]
  | cons c cs ih =>
      rw [matchesAfter_cons, not_or] at h
      rw [replaceFrom, Option.not_isSome_iff_eq_none.1 h.1]
      exact congrArg (c :: ·) (ih h.2 false)

/-- Replacing matches never adds bytes. -/
theorem Shortens.byteLength_replaceFrom_le (h : regex.Shortens replacement)
    (before : Option Char) (skip : Nat) (afterMatch : Bool) (t : Text) :
    Text.byteLength (regex.replaceFrom replacement before skip afterMatch t) ≤
      Text.byteLength (t.drop skip) := by
  induction t generalizing before skip afterMatch with
  | nil => simp [replaceFrom, h.eq_none]
  | cons c cs ih =>
      cases skip with
      | succ n => exact ih (some c) n true
      | zero =>
          rw [replaceFrom]
          cases hmatch : regex.matchLength? before (c :: cs) with
          | none => exact Nat.add_le_add_left (ih (some c) 0 false) c.utf8Size
          | some n =>
              cases n with
              | zero => exact absurd hmatch (h.ne_zero before _)
              | succ n =>
                  have hlt := h.lt_of_match hmatch
                  have hrest := ih (some c) n true
                  rw [List.drop_succ_cons] at hlt
                  rw [Text.byteLength_append, List.drop_zero]
                  omega

/-- Replacing matches takes bytes away, if there is a match. -/
theorem Shortens.byteLength_replaceFrom_lt (h : regex.Shortens replacement)
    (afterMatch : Bool) {t : Text} (hmatches : regex.MatchesAfter before t) :
    Text.byteLength (regex.replaceFrom replacement before 0 afterMatch t) <
      Text.byteLength t := by
  induction t generalizing before afterMatch with
  | nil =>
      rw [matchesAfter_nil, h.eq_none] at hmatches
      contradiction
  | cons c cs ih =>
      rw [replaceFrom]
      cases hmatch : regex.matchLength? before (c :: cs) with
      | none =>
          rw [matchesAfter_cons, hmatch] at hmatches
          have hrest := hmatches.resolve_left (by simp)
          exact Nat.add_lt_add_left (ih false hrest) c.utf8Size
      | some n =>
          cases n with
          | zero => exact absurd hmatch (h.ne_zero before _)
          | succ n =>
              have hlt := h.lt_of_match hmatch
              have hrest := h.byteLength_replaceFrom_le (some c) n true cs
              rw [List.drop_succ_cons] at hlt
              rw [Text.byteLength_append]
              omega

end Regex

end Pattern

namespace ReplacementRule

def MatchesIn (rule : ReplacementRule) (t : Text) : Prop :=
  rule.pattern.regex.MatchesAfter none t

def Shortens (rule : ReplacementRule) : Prop :=
  rule.pattern.regex.Shortens rule.replacement

variable {rule : ReplacementRule} {rules : List ReplacementRule} {t : Text}

theorem apply_of_not_matchesIn (h : ¬ rule.MatchesIn t) : rule.apply t = t :=
  Pattern.Regex.replaceFrom_of_not_matches h false rule.replacement

theorem Shortens.byteLength_apply_lt (hrule : rule.Shortens) (h : rule.MatchesIn t) :
    (rule.apply t).byteLength < t.byteLength :=
  hrule.byteLength_replaceFrom_lt false h

theorem applyAll_cons (rule : ReplacementRule) (rules : List ReplacementRule) (t : Text) :
    applyAll (rule :: rules) t = applyAll rules (rule.apply t) := rfl

/-- Rules that shorten leave a text as it is if none of them matches in it, and make it
shorter otherwise. -/
theorem applyAll_cases (hrules : ∀ rule ∈ rules, rule.Shortens) (t : Text) :
    ((∀ rule ∈ rules, ¬ rule.MatchesIn t) ∧ applyAll rules t = t) ∨
      ((∃ rule ∈ rules, rule.MatchesIn t) ∧ (applyAll rules t).byteLength < t.byteLength) := by
  induction rules generalizing t with
  | nil => exact .inl ⟨List.forall_mem_nil _, rfl⟩
  | cons rule rules ih =>
      obtain ⟨hrule, hrules⟩ := List.forall_mem_cons.1 hrules
      rw [applyAll_cons]
      by_cases hmatches : rule.MatchesIn t
      · have hlt := hrule.byteLength_apply_lt hmatches
        refine .inr ⟨⟨rule, List.mem_cons_self, hmatches⟩, ?_⟩
        rcases ih hrules (rule.apply t) with ⟨-, heq⟩ | ⟨-, hshorter⟩
        · rw [heq]
          exact hlt
        · exact Nat.lt_trans hshorter hlt
      · rw [apply_of_not_matchesIn hmatches]
        rcases ih hrules t with ⟨hnone, heq⟩ | ⟨⟨later, hlater, hmatch⟩, hshorter⟩
        · exact .inl ⟨List.forall_mem_cons.2 ⟨hmatches, hnone⟩, heq⟩
        · exact .inr ⟨⟨later, List.mem_cons_of_mem rule hlater, hmatch⟩, hshorter⟩

/-- Rules that shorten come to rest: each step makes the text shorter, until no rule
matches in it, and from then on nothing changes. -/
theorem exists_iterate_applyAll (hrules : ∀ rule ∈ rules, rule.Shortens) (t : Text) :
    ∃ n ≤ t.byteLength,
      (∀ k < n, ((applyAll rules)^[k + 1] t).byteLength <
        ((applyAll rules)^[k] t).byteLength) ∧
      (∀ k, n ≤ k → (applyAll rules)^[k] t = (applyAll rules)^[n] t) ∧
      ∀ rule ∈ rules, ¬ rule.MatchesIn ((applyAll rules)^[n] t) := by
  -- Induction on the bytes of the text: one step has fewer, or changes nothing.
  induction hlength : t.byteLength using Nat.strongRecOn generalizing t with
  | _ length ih =>
      subst hlength
      rcases applyAll_cases hrules t with ⟨hnone, heq⟩ | ⟨-, hshorter⟩
      · refine ⟨0, Nat.zero_le _, fun k hk => absurd hk (Nat.not_lt_zero k), ?_, hnone⟩
        exact fun k _ => Function.iterate_fixed heq k
      · obtain ⟨n, hn, hdecreases, hfixed, hnone⟩ := ih _ hshorter (applyAll rules t) rfl
        refine ⟨n + 1, Nat.succ_le_of_lt (Nat.lt_of_le_of_lt hn hshorter), ?_, ?_, hnone⟩
        · intro k hk
          cases k with
          | zero => exact hshorter
          | succ k => exact hdecreases k (Nat.lt_of_succ_lt_succ hk)
        · intro k hk
          cases k with
          | zero => exact absurd hk (Nat.not_succ_le_zero n)
          | succ k => exact hfixed k (Nat.le_of_succ_le_succ hk)

end ReplacementRule

end SourceMarkup
