import SourceMarkup.Markup.Render
import SourceMarkup.Proofs.Markup.RawText

/-!
# Attributes that stay in their tag

The first rule of raw text finds the end of an opening tag at the next `>`, if the
line does not end before it. Attributes whose characters stay in the tag are
dropped with it. Names of properties and classes are such texts, so this is a matter
of the values of style rules; the built-in ones all stay in their tag.
-/

namespace SourceMarkup

namespace Markup

open Pattern

def staysInTag (c : Char) : Bool :=
  tagSet.contains c && c != '>'

theorem staysInTag_iff {c : Char} :
    staysInTag c = true ↔ c ∉ ['>', '\n', '\r', '\u2028', '\u2029'] := by
  simp [staysInTag, tagSet, CharSet.contains, CharSet.ofChars, CharSet.unions, and_comm]

/-- Attributes all of which stay in their tag. -/
def StayInTag (scheme : Attributes) : Prop :=
  ∀ kind a, scheme kind = some a → a.all staysInTag

theorem staysInTag_declaration {rule : StyleRule} (h : rule.value.all staysInTag) :
    rule.declaration.all staysInTag := by
  have hname : rule.property.cssName.all staysInTag := by
    cases rule.property <;> decide
  have hcolon : [':'].all staysInTag := by decide
  have hsemicolon : [';'].all staysInTag := by decide
  rw [StyleRule.declaration, List.all_append, List.all_append, List.all_append, hname,
    hcolon, h, hsemicolon]
  rfl

theorem staysInTag_declarations {rules : List StyleRule}
    (h : ∀ rule ∈ rules, rule.value.all staysInTag) :
    (StyleRule.declarations rules).all staysInTag := by
  rw [StyleRule.declarations, List.all_flatMap, List.all_eq_true]
  exact fun rule hrule => staysInTag_declaration (h rule hrule)

theorem staysInTag_className (kind : TokenKind) : (className kind).all staysInTag := by
  cases kind <;> decide

theorem stayInTag_classAttributes (styles : StyleScheme) :
    StayInTag (classAttributes styles) := by
  intro kind a ha
  have hclass : "class=\"".toList.all staysInTag := by decide
  have hquote : ['"'].all staysInTag := by decide
  rw [classAttributes] at ha
  split at ha
  · contradiction
  · rw [← Option.some.inj ha, List.all_append, List.all_append, hclass, hquote,
      staysInTag_className]
    rfl

/-- Attributes stay in their tag if the values of all style rules do. -/
theorem stayInTag_attributes {styles : StyleScheme}
    (h : ∀ kind, ∀ rule ∈ styles.rules kind, rule.value.all staysInTag)
    (markup : MarkupType) : StayInTag (attributes markup styles) := by
  cases markup with
  | inline =>
      intro kind a ha
      have hstyle : "style=\"".toList.all staysInTag := by decide
      have hquote : ['"'].all staysInTag := by decide
      rw [attributes, inlineAttributes] at ha
      split at ha
      · contradiction
      · rw [← Option.some.inj ha, List.all_append, List.all_append, hstyle, hquote,
          StyleScheme.declarations, staysInTag_declarations (h kind)]
        rfl
  | classBased => exact stayInTag_classAttributes styles

theorem staysInTag_ofProfile (profile : Profile) (kind : TokenKind) :
    ∀ rule ∈ (StyleScheme.ofProfile profile).rules kind, rule.value.all staysInTag := by
  cases profile <;> cases kind <;> decide

theorem stayInTag_schemeOf (settings : Settings) : StayInTag (schemeOf settings) :=
  stayInTag_attributes (staysInTag_ofProfile settings.profile) settings.markup

end Markup

end SourceMarkup
