import Mathlib.Data.List.Nodup
import SourceMarkup.Style.Scheme

/-!
# What is registered in a style scheme

Registering adds to the rules of one kind and touches no other, so only the order of what
is registered for the same kind matters. The kinds that have rules stand in the order of
their declaration, in whichever order they were registered.
-/

namespace SourceMarkup

namespace TokenKind

theorem pairwise_all : all.Pairwise fun j k => j.ctorIdx < k.ctorIdx := by decide

theorem eq_of_cssName_eq {j k : TokenKind} (h : j.cssName = k.cssName) : j = k := by
  have hnodup : (all.map cssName).Nodup := by decide
  exact List.inj_on_of_nodup_map hnodup (mem_all j) (mem_all k) h

end TokenKind

namespace StyleScheme

theorem rules_registerAll (start : StyleScheme) (entries : List (TokenKind × List StyleRule))
    (kind : TokenKind) :
    (start.registerAll entries).rules kind =
      start.rules kind ++ (entries.filter fun entry => entry.1 = kind).flatMap Prod.snd := by
  induction entries generalizing start with
  | nil => simp [registerAll]
  | cons entry entries ih =>
      have hrest : start.registerAll (entry :: entries) =
          (start.register entry.1 entry.2).registerAll entries := rfl
      rw [hrest, ih]
      by_cases hkind : entry.1 = kind
      · subst hkind
        simp
      · rw [rules_register_of_ne start entry.2 (Ne.symm hkind), List.filter_cons_of_neg]
        simpa using hkind

theorem mem_supportedKinds (styles : StyleScheme) (kind : TokenKind) :
    kind ∈ styles.supportedKinds ↔ styles.rules kind ≠ [] := by
  simp [supportedKinds, TokenKind.mem_all]

theorem pairwise_supportedKinds (styles : StyleScheme) :
    styles.supportedKinds.Pairwise fun j k => j.ctorIdx < k.ctorIdx :=
  TokenKind.pairwise_all.filter _

end StyleScheme

end SourceMarkup
