import SourceMarkup.Text.Digit

/-!
# Character references

A reference stands for one character: `&lt;` by name, `&#60;` and `&#x3C;` by
number. `Reference.decodeFrom` replaces every reference of a text. An ampersand
that begins no reference is kept, and so is an unknown name, but a reference by
number has to be well formed. A reference is looked for within eleven characters
of its ampersand, and errors tell the byte offset of the ampersand.
-/

namespace SourceMarkup

namespace Markup

inductive ReferenceError
  | emptyNumeric (offset : Nat)
  | invalidDigit (digit : Char) (offset : Nat)
  /-- The reference does not end, has too many digits or names no character. -/
  | invalidCodePoint (reference : Text) (offset : Nat)
  deriving DecidableEq, Repr

def ReferenceError.message : ReferenceError → Text
  | emptyNumeric offset =>
      "Empty numeric character reference at offset ".toList ++ Text.ofNat offset
  | invalidDigit digit offset =>
      "Invalid digit '".toList ++ [digit] ++
        "' in character reference at offset ".toList ++ Text.ofNat offset
  | invalidCodePoint reference offset =>
      "Character reference '".toList ++ reference ++ "' at offset ".toList ++
        Text.ofNat offset ++ " is not a valid code point".toList

namespace Reference

def names : List (Text × Char) :=
  [("amp".toList, '&'), ("lt".toList, '<'), ("gt".toList, '>'),
    ("quot".toList, '"'), ("apos".toList, '\''), ("nbsp".toList, '\u00a0'),
    ("copy".toList, '\u00a9'), ("reg".toList, '\u00ae')]

/-- The most characters between an ampersand and the semicolon of a reference. -/
def maxBody : Nat := 10

/-- A reference as it is written, from its body. -/
def written (body : Text) : Text :=
  '&' :: body ++ [';']

/-- The character that a number refers to: `body` is the whole body, `digits` its
digits in the base, of which there may be `maxDigits`. -/
def readNumber (offset : Nat) (body : Text) (base maxDigits : Nat)
    (digits : Text) : Except ReferenceError Char :=
  if digits.isEmpty then .error (.emptyNumeric offset)
  else if maxDigits < digits.length then
    .error (.invalidCodePoint (written body) offset)
  else
    match digits.find? fun c => (Text.digit? base c).isNone with
    | some c => .error (.invalidDigit c offset)
    | none =>
        match Text.charOfCode? (Text.number base digits) with
        | some c => .ok c
        | none => .error (.invalidCodePoint (written body) offset)

/-- The character that the body of a reference stands for; none for an unknown
name. -/
def readBody (offset : Nat) (body : Text) :
    Except ReferenceError (Option Char) :=
  match body with
  | '#' :: 'x' :: digits => (readNumber offset body 16 4 digits).map some
  | '#' :: 'X' :: digits => (readNumber offset body 16 4 digits).map some
  | '#' :: digits => (readNumber offset body 10 5 digits).map some
  | name => .ok (names.lookup name)

/-- What the text after an ampersand at `offset` begins: the character referred
to with the number of characters after the ampersand that the reference takes,
or none. -/
def read (offset : Nat) (rest : Text) :
    Except ReferenceError (Option (Char × Nat)) :=
  let near := rest.take (maxBody + 1)
  if near.contains ';' then
    let body := near.takeWhile (· != ';')
    (readBody offset body).map (·.map fun c => (c, body.length + 1))
  else
    match rest with
    | '#' :: digits =>
        .error (.invalidCodePoint ('&' :: '#' :: digits.take maxBody) offset)
    | _ => .ok none

/-- The text with its references replaced, where its first character stands at
`offset`. -/
def decodeFrom (offset : Nat) : Text → Except ReferenceError Text
  | [] => .ok []
  | c :: cs =>
      if c = '&' then
        match read offset cs with
        | .error e => .error e
        | .ok none => (decodeFrom (offset + 1) cs).map ('&' :: ·)
        | .ok (some (d, n)) =>
            (decodeFrom (offset + 1 + Text.byteLength (cs.take n))
              (cs.drop n)).map (d :: ·)
      else (decodeFrom (offset + c.utf8Size) cs).map (c :: ·)
  termination_by t => t.length
  decreasing_by all_goals simp only [List.length_cons, List.length_drop]; omega

def decode (t : Text) : Except ReferenceError Text :=
  decodeFrom 0 t

end Reference

end Markup

end SourceMarkup
