import SourceMarkup.Text.Blank
import SourceMarkup.Text.LetterCase

/-!
# Choices

What a user can choose: the colours, the language of the source, and how styles
are attached. Each is a closed list of values with names. A value is read in any
letter case, with white space around it and with underscores for hyphens.
-/

namespace SourceMarkup

/-- The colour scheme of a development environment. -/
inductive Profile
  | idea
  | eclipse
  | netbeans
  deriving DecidableEq, Repr

inductive Language
  | java
  | xml
  deriving DecidableEq, Repr

/-- How styles are attached to spans: in the span itself, or by a class with a
stylesheet. -/
inductive MarkupType
  | inline
  | classBased
  deriving DecidableEq, Repr

/-- A closed list of named values that one parameter selects from. -/
class Choice (α : Type) where
  param : Text
  /-- The values, the default one first. -/
  all : List α
  /-- The name of a value, in lower case with hyphens. -/
  name : α → Text

instance : Inhabited Profile := ⟨.idea⟩

instance : Inhabited Language := ⟨.java⟩

instance : Inhabited MarkupType := ⟨.inline⟩

instance : Choice Profile where
  param := "profile".toList
  all := [.idea, .eclipse, .netbeans]
  name
    | .idea => "idea".toList
    | .eclipse => "eclipse".toList
    | .netbeans => "netbeans".toList

instance : Choice Language where
  param := "language".toList
  all := [.java, .xml]
  name
    | .java => "java".toList
    | .xml => "xml".toList

instance : Choice MarkupType where
  param := "markup".toList
  all := [.inline, .classBased]
  name
    | .inline => "inline".toList
    | .classBased => "class-based".toList

namespace Choice

def ofName? {α : Type} [Choice α] (t : Text) : Option α :=
  (all : List α).find? fun a => name a == t

theorem isSome_ofName?_name {α : Type} [Choice α] {a : α}
    (h : a ∈ (all : List α)) : (ofName? (name a) : Option α).isSome = true := by
  rw [ofName?, List.find?_isSome]
  exact ⟨a, h, beq_self_eq_true _⟩

def normalize (t : Text) : Text :=
  Text.replaceChar '_' ['-'] (Text.lowercase (Text.trim Text.isWhiteSpace t))

def parse? {α : Type} [Choice α] (t : Text) : Option α :=
  ofName? (normalize t)

end Choice

end SourceMarkup
