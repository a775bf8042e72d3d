import SourceMarkup.Text.Digit
import SourceMarkup.Toml.Value

/-!
# Numbers and dates of TOML

Integers have 64 bits and may be written in base ten, sixteen, eight or two.
A number with a fraction or an exponent must not exceed the largest double. A
single underscore may stand between two digits. Dates are dates of the calendar,
with or without a time, and a time may also stand alone.
-/

namespace SourceMarkup

namespace Toml

/-- A part of a text that has been read, with the text after it. -/
abbrev Reading (α : Type) := Option (α × Text)

/-- The digits that a text starts with, without the underscores between them. -/
def digits? (isDigit : Char → Bool) (t : Text) : Reading Text :=
  let run := t.takeWhile fun c => isDigit c || c == '_'
  if (Text.splitOn '_' run).all fun part => !part.isEmpty then
    some (run.filter (· != '_'), t.drop run.length)
  else none

/-- The sign that a text starts with, if any: whether it is a minus sign. -/
def sign (t : Text) : Bool × Text :=
  match t with
  | '+' :: cs => (false, cs)
  | '-' :: cs => (true, cs)
  | _ => (false, t)

/-- The digits of a decimal number, of which a leading zero is the only one. -/
def decimalDigits? (t : Text) : Reading Text :=
  match t with
  | '0' :: cs => some (['0'], cs)
  | _ => digits? Text.isAsciiDigit t

def isInt64 (n : Int) : Bool :=
  -0x8000000000000000 ≤ n && n < 0x8000000000000000

def integerOf? (isNegative : Bool) (base : Nat) (digits : Text) : Option Value :=
  let size := Text.number base digits
  let n : Int := if isNegative then -size else size
  if isInt64 n then some (.integer n) else none

/-- An integer in a base that a letter after a zero tells. -/
def basedInteger? (base : Nat) (t : Text) : Reading Value :=
  (digits? (fun c => (Text.digit? base c).isSome) t).bind fun (digits, rest) =>
    (integerOf? false base digits).map (·, rest)

def integer? (t : Text) : Reading Value :=
  match t with
  | '0' :: 'x' :: cs => basedInteger? 16 cs
  | '0' :: 'o' :: cs => basedInteger? 8 cs
  | '0' :: 'b' :: cs => basedInteger? 2 cs
  | _ =>
      let (isNegative, cs) := sign t
      (decimalDigits? cs).bind fun (digits, rest) =>
        (integerOf? isNegative 10 digits).map (·, rest)

/-- The fraction that a text starts with; none if it starts with no point. -/
def fraction? (t : Text) : Reading Text :=
  match t with
  | '.' :: cs => digits? Text.isAsciiDigit cs
  | _ => none

def exponent? (t : Text) : Reading Int :=
  match t with
  | c :: cs =>
      if c = 'e' ∨ c = 'E' then
        let (isNegative, ds) := sign cs
        (digits? Text.isAsciiDigit ds).map fun (digits, rest) =>
          let size : Int := Text.number 10 digits
          (if isNegative then -size else size, rest)
      else none
  | [] => none

/-- Whether the number with the given digits times ten to an exponent lies beyond
the doubles: at least halfway from the largest of them to two to the 1024. -/
def exceedsDouble (digits : Text) (exponent : Int) : Bool :=
  let significant := digits.dropWhile (· == '0')
  let scale : Int := significant.length + exponent
  if significant.isEmpty || scale < 300 then false
  else if 320 < scale then true
  else
    let bound := Nat.pow 2 1024 - Nat.pow 2 970
    let n := Text.number 10 significant
    if 0 ≤ exponent then bound ≤ n * Nat.pow 10 exponent.toNat
    else bound * Nat.pow 10 (-exponent).toNat ≤ n

def decimal? (t : Text) : Reading Value :=
  let (isNegative, cs) := sign t
  (decimalDigits? cs).bind fun (whole, rest) =>
    let (fraction, afterFraction) := (fraction? rest).getD ([], rest)
    let (exponent, afterAll) := (exponent? afterFraction).getD (0, afterFraction)
    if rest.length = afterAll.length then none
    else if !isNegative &&
        exceedsDouble (whole ++ fraction) (exponent - fraction.length) then
      none
    else some (.float (t.take (t.length - afterAll.length)), afterAll)

def word? (word : Text) (t : Text) : Reading Text :=
  if word.isPrefixOf t then some (word, t.drop word.length) else none

/-- The infinity or the undefined number that a text starts with. -/
def specialNumber? (t : Text) : Reading Value :=
  let (_, cs) := sign t
  ((word? "inf".toList cs).or (word? "nan".toList cs)).map fun (_, rest) =>
    (.float (t.take (t.length - rest.length)), rest)

/-! ### Dates -/

/-- The number of `width` digits that a text starts with, if it lies between two
bounds. -/
def fixedNumber? (width least most : Nat) (t : Text) : Reading Nat :=
  let digits := t.take width
  let n := Text.number 10 digits
  if digits.length = width ∧ digits.all Text.isAsciiDigit ∧ least ≤ n ∧ n ≤ most then
    some (n, t.drop width)
  else none

def afterChar? (c : Char) (t : Text) : Option Text :=
  match t with
  | d :: ds => if d = c then some ds else none
  | [] => none

def daysInMonth (year month : Nat) : Nat :=
  if month = 2 then
    if year % 4 = 0 ∧ (year % 100 ≠ 0 ∨ year % 400 = 0) then 29 else 28
  else if month = 4 ∨ month = 6 ∨ month = 9 ∨ month = 11 then 30
  else 31

def afterDate? (t : Text) : Option Text := do
  let (year, t) ← fixedNumber? 4 0 9999 t
  let t ← afterChar? '-' t
  let (month, t) ← fixedNumber? 2 1 12 t
  let t ← afterChar? '-' t
  let (_, t) ← fixedNumber? 2 1 (daysInMonth year month) t
  return t

/-- The text after a fraction of a second, if the text starts with one. -/
def afterSecondFraction (t : Text) : Text :=
  match t with
  | '.' :: c :: cs =>
      if Text.isAsciiDigit c then cs.dropWhile Text.isAsciiDigit else t
  | _ => t

def afterTime? (t : Text) : Option Text := do
  let (_, t) ← fixedNumber? 2 0 23 t
  let t ← afterChar? ':' t
  let (_, t) ← fixedNumber? 2 0 59 t
  let t ← afterChar? ':' t
  let (_, t) ← fixedNumber? 2 0 60 t
  return afterSecondFraction t

/-- The text after the distance of a time zone from the meridian. -/
def afterOffset? (t : Text) : Option Text :=
  match t with
  | 'Z' :: cs => some cs
  | 'z' :: cs => some cs
  | c :: cs =>
      if c = '+' ∨ c = '-' then do
        let (_, t) ← fixedNumber? 2 0 23 cs
        let t ← afterChar? ':' t
        let (_, t) ← fixedNumber? 2 0 59 t
        return t
      else none
  | [] => none

/-- The text after the time that may follow a date, with its offset. -/
def afterDateTime (t : Text) : Text :=
  match t with
  | c :: cs =>
      if c = 'T' ∨ c = 't' ∨ c = ' ' then
        match afterTime? cs with
        | some rest => (afterOffset? rest).getD rest
        | none => t
      else t
  | [] => t

def datetime? (t : Text) : Reading Value :=
  ((afterDate? t).map afterDateTime |>.or (afterTime? t)).map fun rest =>
    (.datetime (t.take (t.length - rest.length)), rest)

def number? (t : Text) : Reading Value :=
  (datetime? t).or ((decimal? t).or ((specialNumber? t).or (integer? t)))

end Toml

end SourceMarkup
