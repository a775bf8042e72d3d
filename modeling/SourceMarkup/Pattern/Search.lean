import SourceMarkup.Pattern.Basic

/-!
# Searching with a pattern

At a place in a text a regular expression can go on in several ways, in order of
preference: it can be done, or read a character of a set and leave a rest. These
ways are its leads. All leads are followed side by side through the text. A lead
that is done outweighs the leads after it, so the match found is the preferred
one among those that start at the place. Leads with the same rest are followed
once, so at every character there are no more of them than there are rests.
-/

namespace SourceMarkup

namespace Pattern

/-- A way for a regular expression to go on. -/
inductive Lead
  | done
  | read (set : CharSet) (rest : Regex)
  deriving DecidableEq, Repr

namespace Regex

/-- The ways for a regular expression to go on at a place, the preferred one
first. -/
def leads (place : Place) : Regex → List Lead
  | empty => [.done]
  | one set => [.read set empty]
  | anchor condition => if condition.holds place then [.done] else []
  | seq first second =>
      let after := leads place second
      (leads place first).flatMap fun
        | .done => after
        | .read set rest => [.read set (rest.andThen second)]
  | alt first second => leads place first ++ leads place second
  | oneOrMore body greedy =>
      (leads place body).map fun
        | .done => .done
        | .read set rest => .read set (rest.andThen (more body greedy))
  | more body greedy =>
      let rounds := (leads place body).filterMap fun
        | .done => none
        | .read set rest => some (.read set (rest.andThen (more body greedy)))
      if greedy then rounds ++ [.done] else .done :: rounds

/-- What leads leave after reading `c`, up to the first lead that is done. -/
def afterReading (c : Char) : List Lead → List Regex
  | [] => []
  | .done :: _ => []
  | .read set rest :: leads =>
      if set.contains c then rest :: afterReading c leads
      else afterReading c leads

/-- The length of the preferred match among those of `rests` at the start of a
text that follows `before`; `read` characters have been read before, and `found`
is the length of the match found so far. -/
def matchFrom (rests : List Regex) (before : Option Char) (read : Nat)
    (found : Option Nat) : Text → Option Nat
  | [] =>
      let leads := rests.flatMap (leads ⟨before, none⟩)
      if leads.contains .done then some read else found
  | c :: cs =>
      let leads := rests.flatMap (leads ⟨before, some c⟩)
      let found := if leads.contains .done then some read else found
      match (afterReading c leads).eraseDups with
      | [] => found
      | rests => matchFrom rests (some c) (read + 1) found cs

def matchLength? (regex : Regex) (before : Option Char) (t : Text) : Option Nat :=
  matchFrom [regex] before 0 none t

/-- The rest of a text, which follows `before`, with matches replaced. The first
`skip` characters belong to a match that has been replaced; `afterMatch` tells
that a match ends where the rest starts, and then no empty match counts there. -/
def replaceFrom (regex : Regex) (replacement : Text) (before : Option Char)
    (skip : Nat) (afterMatch : Bool) : Text → Text
  | [] =>
      if !afterMatch && skip == 0 && (regex.matchLength? before []).isSome then
        replacement
      else []
  | c :: cs =>
      match skip with
      | n + 1 => replaceFrom regex replacement (some c) n true cs
      | 0 =>
          match regex.matchLength? before (c :: cs) with
          | some (n + 1) =>
              replacement ++ replaceFrom regex replacement (some c) n true cs
          | some 0 =>
              (if afterMatch then [] else replacement) ++
                c :: replaceFrom regex replacement (some c) 0 false cs
          | none => c :: replaceFrom regex replacement (some c) 0 false cs

/-- A text with every match of a regular expression replaced. Matches are taken
from left to right and do not overlap. -/
def replaceAll (regex : Regex) (replacement t : Text) : Text :=
  regex.replaceFrom replacement none 0 false t

end Regex

end Pattern

end SourceMarkup
