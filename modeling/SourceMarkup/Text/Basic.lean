/-!
# Texts and byte offsets

A text is its list of characters. Positions in a text are counted in bytes of
its UTF-8 encoding, as files and clipboards count them, so a position may fall
inside a character. `dropBytes?` and `takeBytes?` cut a text at a byte count and
answer `none` where the cut would split a character or lie beyond the end;
`slice?` is the part between two byte offsets.
-/

namespace SourceMarkup

/-- A text, as the list of its characters. -/
abbrev Text := List Char

namespace Text

/-- The number of bytes of the UTF-8 encoding of a text. -/
def byteLength : Text → Nat
  | [] => 0
  | c :: cs => c.utf8Size + byteLength cs

@[simp] theorem byteLength_nil : byteLength [] = 0 := rfl

@[simp] theorem byteLength_cons (c : Char) (cs : Text) :
    byteLength (c :: cs) = c.utf8Size + byteLength cs := rfl

@[simp] theorem byteLength_append (s t : Text) :
    byteLength (s ++ t) = byteLength s + byteLength t := by
  induction s with
  | nil => simp
  | cons c cs ih => simp [ih, Nat.add_assoc]

/-- The text without its first `n` bytes, where these are whole characters. -/
def dropBytes? : Nat → Text → Option Text
  | 0, t => some t
  | _ + 1, [] => none
  | n + 1, c :: cs =>
      if c.utf8Size ≤ n + 1 then dropBytes? (n + 1 - c.utf8Size) cs else none

def takeBytes? : Nat → Text → Option Text
  | 0, _ => some []
  | _ + 1, [] => none
  | n + 1, c :: cs =>
      if c.utf8Size ≤ n + 1 then
        (takeBytes? (n + 1 - c.utf8Size) cs).map (c :: ·)
      else none

/-- The part of a text from the byte offset `start` to the byte offset `stop`.
There is none when the offsets are reversed, lie beyond the end or fall inside a
character. -/
def slice? (t : Text) (start stop : Nat) : Option Text :=
  if start ≤ stop then
    (dropBytes? start t).bind (takeBytes? (stop - start))
  else none

def trimStart (p : Char → Bool) (t : Text) : Text :=
  t.dropWhile p

def trimEnd (p : Char → Bool) (t : Text) : Text :=
  (t.reverse.dropWhile p).reverse

def trim (p : Char → Bool) (t : Text) : Text :=
  trimEnd p (trimStart p t)

def splitOn (c : Char) : Text → List Text
  | [] => [[]]
  | d :: ds =>
      match splitOn c ds with
      | [] => [[d]]
      | part :: parts => if d = c then [] :: part :: parts else (d :: part) :: parts

def replaceChar (c : Char) (new : Text) (t : Text) : Text :=
  t.flatMap fun d => if d = c then new else [d]

def ofNat (n : Nat) : Text :=
  Nat.toDigits 10 n

end Text

end SourceMarkup
