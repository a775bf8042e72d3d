import SourceMarkup.Text.Basic

/-!
# UTF-8

`toBytes` is the encoding of a text and `ofBytes?` reads it back, refusing
anything else. `ofBytesLossy` reads every sequence of bytes: each longest part
that begins a character but does not finish it, and each byte that can begin
none, becomes one replacement character.
-/

namespace SourceMarkup

namespace Text

def toBytes (t : Text) : List UInt8 :=
  t.flatMap String.utf8EncodeChar

def ofBytes? (bytes : List UInt8) : Option Text :=
  bytes.toByteArray.utf8Decode?.map Array.toList

@[simp] theorem toBytes_nil : toBytes [] = [] := rfl

@[simp] theorem toBytes_cons (c : Char) (cs : Text) :
    toBytes (c :: cs) = String.utf8EncodeChar c ++ toBytes cs := rfl

@[simp] theorem toBytes_append (s t : Text) :
    toBytes (s ++ t) = toBytes s ++ toBytes t := by
  simp [toBytes]

theorem length_toBytes (t : Text) : (toBytes t).length = byteLength t := by
  induction t with
  | nil => rfl
  | cons c cs ih => simp [ih]

/-- Reading what was encoded gives the text back. -/
@[simp] theorem ofBytes?_toBytes (t : Text) : ofBytes? (toBytes t) = some t := by
  have h : (toBytes t).toByteArray.utf8Decode? = some t.toArray :=
    List.utf8Decode?_utf8Encode
  simp [ofBytes?, h]

/-- Only the encoding of a text is read as that text. -/
theorem ofBytes?_eq_some_iff (bytes : List UInt8) (t : Text) :
    ofBytes? bytes = some t ↔ bytes = toBytes t := by
  constructor
  · intro h
    obtain ⟨chars, hchars, rfl⟩ := Option.map_eq_some_iff.1 h
    have hsome : bytes.toByteArray.utf8Decode?.isSome := by simp [hchars]
    have hround : chars.toList.utf8Encode = bytes.toByteArray := by
      have := ByteArray.utf8Encode_get_utf8Decode? (b := bytes.toByteArray)
        (h := hsome)
      simpa [hchars] using this
    have hlist := congrArg (fun b => b.data.toList) hround
    simpa [List.utf8Encode, toBytes] using hlist.symm
  · rintro rfl
    exact ofBytes?_toBytes t

/-! ### Reading malformed bytes -/

/-- A character whose encoding has begun: how many bytes it still owes, the
range the next of them has to lie in, and the value read so far. -/
structure Unfinished where
  owed : Nat
  low : Nat
  high : Nat
  value : Nat

/-- What a byte begins when it opens a character of more than one byte. -/
def Unfinished.ofLead (b : Nat) : Option Unfinished :=
  if 0xC2 ≤ b ∧ b ≤ 0xDF then some ⟨1, 0x80, 0xBF, b - 0xC0⟩
  else if b = 0xE0 then some ⟨2, 0xA0, 0xBF, 0⟩
  else if b = 0xED then some ⟨2, 0x80, 0x9F, 0xD⟩
  else if 0xE1 ≤ b ∧ b ≤ 0xEF then some ⟨2, 0x80, 0xBF, b - 0xE0⟩
  else if b = 0xF0 then some ⟨3, 0x90, 0xBF, 0⟩
  else if 0xF1 ≤ b ∧ b ≤ 0xF3 then some ⟨3, 0x80, 0xBF, b - 0xF0⟩
  else if b = 0xF4 then some ⟨3, 0x80, 0x8F, 4⟩
  else none

def replacement : Char := '\ufffd'

/-- What a byte at the start of a character finishes, and what it leaves open. -/
def readLead (b : Nat) : Text × Option Unfinished :=
  if b < 0x80 then ([Char.ofNat b], none)
  else
    match Unfinished.ofLead b with
    | some u => ([], some u)
    | none => ([replacement], none)

/-- What the next byte finishes, and what it leaves open. A byte that cannot
continue the open character ends it as malformed and is read afresh. -/
def readByte (b : Nat) : Option Unfinished → Text × Option Unfinished
  | none => readLead b
  | some u =>
      if u.low ≤ b ∧ b ≤ u.high then
        let value := u.value * 64 + (b - 0x80)
        if u.owed ≤ 1 then ([Char.ofNat value], none)
        else ([], some ⟨u.owed - 1, 0x80, 0xBF, value⟩)
      else
        let (read, rest) := readLead b
        (replacement :: read, rest)

def readLossy : Option Unfinished → List UInt8 → Text
  | none, [] => []
  | some _, [] => [replacement]
  | u, b :: bs =>
      let (read, rest) := readByte b.toNat u
      read ++ readLossy rest bs

/-- The text of a sequence of bytes, with a replacement character for each
malformed part. -/
def ofBytesLossy (bytes : List UInt8) : Text :=
  readLossy none bytes

end Text

end SourceMarkup
