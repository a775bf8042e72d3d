import SourceMarkup.Form.Percent
import SourceMarkup.Markup.Reference

/-!
# Highlight requests

A request is the body of a form: pairs `key=value` between ampersands, both
percent encoded. The pair named `source` ends the parameters. Its value is the
text to highlight and reaches to the end of the body, and the references in it
are replaced, since browsers submit what the page's encoding lacks as references.
Segments without an equals sign are skipped.
-/

namespace SourceMarkup

namespace Form

inductive RequestError
  | percent (error : PercentError)
  | reference (error : Markup.ReferenceError)
  deriving DecidableEq, Repr

def RequestError.message : RequestError → Text
  | percent error => error.message
  | reference error => error.message

structure Request where
  /-- The pairs before the source, in the order of the body. -/
  params : List (Text × Text) := []
  source : Option Text := none
  deriving DecidableEq, Repr

namespace Request

def sourceKey : Text := "source".toList

/-- The value of the last pair with a key. -/
def param? (request : Request) (key : Text) : Option Text :=
  request.params.reverse.lookup key

def cons (pair : Text × Text) (request : Request) : Request :=
  { request with params := pair :: request.params }

/-- The part of a text before the first `c`. -/
def before (c : Char) (t : Text) : Text :=
  t.takeWhile (· != c)

/-- The part of a text after the first `c`. -/
def after (c : Char) (t : Text) : Text :=
  (t.dropWhile (· != c)).drop 1

theorem length_after_le (c d : Char) (cs : Text) :
    (after c (d :: cs)).length ≤ cs.length := by
  have h := (List.dropWhile_sublist (l := d :: cs) (· != c)).length_le
  simp only [after, List.length_drop, List.length_cons] at h ⊢
  omega

def decodePart (t : Text) : Except RequestError Text :=
  (Percent.decode t).mapError .percent

/-- The source text, from the rest of the body after its key. -/
def decodeSource (t : Text) : Except RequestError Text :=
  (decodePart t).bind fun decoded =>
    (Markup.Reference.decode decoded).mapError .reference

def parse : Text → Except RequestError Request
  | [] => .ok ⟨[], none⟩
  | c :: cs =>
      let segment := before '&' (c :: cs)
      if segment.contains '=' then
        match decodePart (before '=' segment) with
        | .error e => .error e
        | .ok key =>
            if key = sourceKey then
              (decodeSource (after '=' (c :: cs))).map fun source =>
                ⟨[], some source⟩
            else
              match decodePart (after '=' segment) with
              | .error e => .error e
              | .ok value => (parse (after '&' (c :: cs))).map (cons (key, value))
      else parse (after '&' (c :: cs))
  termination_by body => body.length
  decreasing_by
    all_goals
      have := length_after_le '&' c cs
      simp only [List.length_cons]
      omega

end Request

end Form

end SourceMarkup
