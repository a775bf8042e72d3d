import SourceMarkup.Toml.Number

/-!
# Reading TOML

A document is a row of lines, each a key with its value, a header or a comment.
`parse?` gives its entries and refuses every text that breaks a rule: a key set
twice, a table defined twice, a value that goes on after its end. Arrays and
tables in braces nest to a depth of less than eighty, and as many parts is the
limit of a dotted key.

The readers here take a text and give what they read with the text after it.
Those that loop read a character with every step, or two steps; their fuel is
computed from the length of the text.
-/

namespace SourceMarkup

namespace Toml

/-! ### Blanks and comments -/

def isLineBlank (c : Char) : Bool :=
  c == ' ' || c == '\t'

def skipBlanks (t : Text) : Text :=
  t.dropWhile isLineBlank

def isTextChar (c : Char) : Bool :=
  c == '\t' || (' ' ≤ c && c.toNat != 0x7F)

def newline? : Text → Option Text
  | '\n' :: cs => some cs
  | '\r' :: '\n' :: cs => some cs
  | _ => none

/-- The text after the rest of a line, which may hold blanks and a comment. -/
def lineEnd? (t : Text) : Option Text :=
  let t :=
    match skipBlanks t with
    | '#' :: cs => cs.dropWhile isTextChar
    | cs => cs
  match t with
  | [] => some []
  | _ => newline? t

def skipBlankLines : Text → Text
  | [] => []
  | c :: cs =>
      if c = '\n' ∨ isLineBlank c then skipBlankLines cs
      else if c = '\r' then
        match cs with
        | '\n' :: _ => skipBlankLines cs
        | _ => c :: cs
      else c :: cs

def skipTrivia (inComment : Bool) : Text → Text
  | [] => []
  | c :: cs =>
      if c = '\n' then skipTrivia false cs
      else if c = '\r' then
        match cs with
        | '\n' :: _ => skipTrivia false cs
        | _ => c :: cs
      else if inComment then
        if isTextChar c then skipTrivia true cs else c :: cs
      else if c = '#' then skipTrivia true cs
      else if isLineBlank c then skipTrivia false cs
      else c :: cs

/-! ### Strings -/

def codePoint? (width : Nat) (t : Text) : Reading Char :=
  let digits := t.take width
  if digits.length = width ∧ digits.all fun c => (Text.hexDigit? c).isSome then
    (Text.charOfCode? (Text.number 16 digits)).map (·, t.drop width)
  else none

def escape? : Text → Reading Char
  | [] => none
  | c :: cs =>
      match c with
      | 'b' => some ('\x08', cs)
      | 't' => some ('\t', cs)
      | 'n' => some ('\n', cs)
      | 'f' => some ('\x0c', cs)
      | 'r' => some ('\r', cs)
      | '"' => some ('"', cs)
      | '\\' => some ('\\', cs)
      | 'u' => codePoint? 4 cs
      | 'U' => codePoint? 8 cs
      | _ => none

def basicString? : Nat → Text → Reading Text
  | 0, _ => none
  | _ + 1, [] => none
  | fuel + 1, c :: cs =>
      if c = '"' then some ([], cs)
      else if c = '\\' then
        (escape? cs).bind fun (d, rest) =>
          (basicString? fuel rest).map fun (t, rest) => (d :: t, rest)
      else if isTextChar c then
        (basicString? fuel cs).map fun (t, rest) => (c :: t, rest)
      else none

def literalString? (t : Text) : Reading Text :=
  match t.dropWhile fun c => isTextChar c && c != '\'' with
  | '\'' :: rest => some (t.takeWhile fun c => isTextChar c && c != '\'', rest)
  | _ => none

/-- The quotes that belong to a string over several lines where `count` of them
stand in a row, and whether the string ends there. The last three of at most five
end it. -/
def quoteRun (count : Nat) : Nat × Bool :=
  if count < 3 then (count, false) else (min (count - 3) 2, true)

/-- The rest of a string over several lines, between three quotes of a kind.
Double quotes admit escapes, and a backslash at the end of a line joins the text
with what follows after blanks and ends of lines. -/
def longString? (quote : Char) : Nat → Text → Reading Text
  | 0, _ => none
  | _ + 1, [] => none
  | fuel + 1, c :: cs =>
      if c = quote then
        let count := (cs.takeWhile (· == quote)).length + 1
        let (inside, isEnd) := quoteRun count
        let quotes := List.replicate inside quote
        if isEnd then some (quotes, cs.drop (inside + 2))
        else
          (longString? quote fuel (cs.drop (count - 1))).map fun (t, rest) =>
            (quotes ++ t, rest)
      else if c = '\\' ∧ quote = '"' then
        match newline? (skipBlanks cs) with
        | some rest =>
            longString? quote fuel (skipBlankLines rest)
        | none =>
            (escape? cs).bind fun (d, rest) =>
              (longString? quote fuel rest).map fun (t, rest) => (d :: t, rest)
      else if isTextChar c then
        (longString? quote fuel cs).map fun (t, rest) => (c :: t, rest)
      else
        match newline? (c :: cs) with
        | some rest =>
            (longString? quote fuel rest).map fun (t, rest) => ('\n' :: t, rest)
        | none => none

def string? (t : Text) : Reading Text :=
  let fuel := t.length + 1
  match t with
  | '"' :: '"' :: '"' :: cs => longString? '"' fuel ((newline? cs).getD cs)
  | '\'' :: '\'' :: '\'' :: cs => longString? '\'' fuel ((newline? cs).getD cs)
  | '"' :: cs => basicString? fuel cs
  | '\'' :: cs => literalString? cs
  | _ => none

/-! ### Keys -/

def isBareKeyChar (c : Char) : Bool :=
  Text.isAsciiAlnum c || c == '_' || c == '-'

/-- The part of a dotted key that a text starts with. -/
def simpleKey? (t : Text) : Reading Text :=
  match t with
  | '"' :: cs => basicString? (t.length + 1) cs
  | '\'' :: cs => literalString? cs
  | _ =>
      let key := t.takeWhile isBareKeyChar
      if key.isEmpty then none else some (key, t.drop key.length)

def keyParts? : Nat → Text → Reading (List Text)
  | 0, _ => none
  | fuel + 1, t =>
      (simpleKey? (skipBlanks t)).bind fun (part, rest) =>
        match skipBlanks rest with
        | '.' :: cs =>
            (keyParts? fuel cs).map fun (parts, rest) => (part :: parts, rest)
        | rest => some ([part], rest)

/-- What the depth of nesting and the number of parts of a dotted key stay
below. -/
def depthLimit : Nat := 80

def key? (t : Text) : Reading (List Text) :=
  (keyParts? (t.length + 1) t).filter fun (parts, _) => parts.length < depthLimit

/-! ### Values -/

def insertPair? (entries : Entries) (pair : List Text × Value) : Option Entries :=
  pair.1.getLast?.bind fun key =>
    Entries.insertDotted? pair.1.dropLast key pair.2 .defined entries

def closedTable? (pairs : List (List Text × Value)) : Option Value :=
  (pairs.foldlM insertPair? []).map (.table .closed)

mutual

/-- The value that a text starts with, inside `depth` arrays and tables. -/
def value? (depth : Nat) : Nat → Text → Reading Value
  | 0, _ => none
  | _ + 1, [] => none
  | fuel + 1, c :: cs =>
      if c = '"' ∨ c = '\'' then
        (string? (c :: cs)).map fun (t, rest) => (.string t, rest)
      else if c = '[' then
        if depth + 1 < depthLimit then
          (items? (depth + 1) fuel cs).map fun (items, rest) => (.array items, rest)
        else none
      else if c = '\x7b' then
        if depth + 1 < depthLimit then
          match skipBlanks cs with
          | '\x7d' :: rest => some (.table .closed [], rest)
          | _ =>
              (pairs? (depth + 1) fuel cs).bind fun (pairs, rest) =>
                (closedTable? pairs).map (·, rest)
        else none
      else if c = 't' then
        (word? "true".toList (c :: cs)).map fun (_, rest) => (.boolean true, rest)
      else if c = 'f' then
        (word? "false".toList (c :: cs)).map fun (_, rest) => (.boolean false, rest)
      else number? (c :: cs)

def items? (depth : Nat) : Nat → Text → Reading (List Value)
  | 0, _ => none
  | fuel + 1, t =>
      match skipTrivia false t with
      | ']' :: rest => some ([], rest)
      | t =>
          (value? depth fuel t).bind fun (item, rest) =>
            match skipTrivia false rest with
            | ',' :: rest =>
                (items? depth fuel rest).map fun (items, rest) =>
                  (item :: items, rest)
            | ']' :: rest => some ([item], rest)
            | _ => none

/-- The rest of a table in braces: at least one key with its value, on one line
and without a comma behind the last. -/
def pairs? (depth : Nat) : Nat → Text → Reading (List (List Text × Value))
  | 0, _ => none
  | fuel + 1, t =>
      (key? t).bind fun (path, rest) =>
        match rest with
        | '=' :: rest =>
            (value? depth fuel (skipBlanks rest)).bind fun (value, rest) =>
              match skipBlanks rest with
              | ',' :: rest =>
                  (pairs? depth fuel rest).map fun (pairs, rest) =>
                    ((path, value) :: pairs, rest)
              | '\x7d' :: rest => some ([(path, value)], rest)
              | _ => none
        | _ => none

end

/-! ### Documents -/

/-- A header that starts after its brackets `opening` and ends with `closing`, and
the text after its line. -/
def header? (closing t : Text) : Reading (List Text) :=
  (key? t).bind fun (path, rest) =>
    (word? closing rest).bind fun (_, rest) =>
      (lineEnd? rest).map (path, ·)

def line? (document : Document) (t : Text) : Reading Document :=
  match skipBlanks t with
  | [] => some (document, [])
  | '[' :: '[' :: cs =>
      (header? "]]".toList cs).bind fun (path, rest) =>
        (document.appendTable? path).map (·, rest)
  | '[' :: cs =>
      (header? "]".toList cs).bind fun (path, rest) =>
        (document.openTable? path).map (·, rest)
  | c :: cs =>
      if c = '#' ∨ c = '\n' ∨ c = '\r' then
        (lineEnd? (c :: cs)).map (document, ·)
      else
        (key? (c :: cs)).bind fun (path, rest) =>
          match rest with
          | '=' :: rest =>
              let t := skipBlanks rest
              (value? 0 (2 * t.length + 2) t).bind fun (value, rest) =>
                (lineEnd? rest).bind fun rest =>
                  (document.insert? path value).map (·, rest)
          | _ => none

def lines? : Nat → Document → Text → Option Document
  | _, document, [] => some document
  | 0, _, _ :: _ => none
  | fuel + 1, document, c :: cs =>
      (line? document (c :: cs)).bind fun (document, rest) =>
        lines? fuel document rest

/-- The entries of the document that a text writes. A byte order mark at its start
is skipped. -/
def parse? (t : Text) : Option Entries :=
  let t :=
    match t with
    | '\ufeff' :: cs => cs
    | _ => t
  (lines? (t.length + 1) .empty t).map Document.entries

end Toml

end SourceMarkup
