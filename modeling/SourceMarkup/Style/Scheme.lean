import SourceMarkup.Settings.Choice
import SourceMarkup.Style.Rule

/-!
# Style schemes

A style scheme gives every kind of token its rules, on behalf of a profile. It is
built up by registering rules for one kind after another; rules registered later
for a kind follow those registered before. A kind without rules has no style.
-/

namespace SourceMarkup

/-- The style rules of every kind of token, for a profile. -/
structure StyleScheme where
  profile : Profile
  rules : TokenKind → List StyleRule

namespace StyleScheme

def empty (profile : Profile) : StyleScheme :=
  ⟨profile, fun _ => []⟩

/-- The scheme with more rules for one kind, after those it has. -/
def register (scheme : StyleScheme) (kind : TokenKind)
    (rules : List StyleRule) : StyleScheme :=
  { scheme with
    rules := fun k => if k = kind then scheme.rules k ++ rules else scheme.rules k }

/-- The scheme after registering rules for several kinds in turn. -/
def registerAll (scheme : StyleScheme)
    (entries : List (TokenKind × List StyleRule)) : StyleScheme :=
  entries.foldl (fun s entry => s.register entry.1 entry.2) scheme

/-- The kinds that have rules, in their order. -/
def supportedKinds (scheme : StyleScheme) : List TokenKind :=
  TokenKind.all.filter fun kind => !(scheme.rules kind).isEmpty

def declarations (scheme : StyleScheme) (kind : TokenKind) : Text :=
  StyleRule.declarations (scheme.rules kind)

@[simp] theorem rules_empty (profile : Profile) (kind : TokenKind) :
    (empty profile).rules kind = [] := rfl

@[simp] theorem rules_register_self (scheme : StyleScheme) (kind : TokenKind)
    (rules : List StyleRule) :
    (scheme.register kind rules).rules kind = scheme.rules kind ++ rules := by
  simp [register]

theorem rules_register_of_ne (scheme : StyleScheme) {kind other : TokenKind}
    (rules : List StyleRule) (h : other ≠ kind) :
    (scheme.register kind rules).rules other = scheme.rules other := by
  simp [register, h]

end StyleScheme

end SourceMarkup
