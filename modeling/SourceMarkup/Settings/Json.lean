import SourceMarkup.Text.Digit

/-!
# JSON

The values that reports are made of, and their text over several lines, with two
blanks for each level. Quotes, backslashes and control characters in strings are
escaped.
-/

namespace SourceMarkup

/-- A value made of strings. -/
inductive Json
  | string (t : Text)
  | array (items : List Json)
  | object (fields : List (Text × Json))

namespace Json

def hexDigit (n : Nat) : Char :=
  Nat.digitChar n

def escapeChar (c : Char) : Text :=
  if c = '"' then ['\\', '"']
  else if c = '\\' then ['\\', '\\']
  else if c = '\n' then ['\\', 'n']
  else if c = '\r' then ['\\', 'r']
  else if c = '\t' then ['\\', 't']
  else if c = '\x08' then ['\\', 'b']
  else if c = '\x0c' then ['\\', 'f']
  else if c.toNat < 32 then
    ['\\', 'u', '0', '0', hexDigit (c.toNat / 16), hexDigit (c.toNat % 16)]
  else [c]

def quoted (t : Text) : Text :=
  '"' :: t.flatMap escapeChar ++ ['"']

def newLine (level : Nat) : Text :=
  '\n' :: List.replicate (2 * level) ' '

mutual

def pretty (level : Nat) : Json → Text
  | string t => quoted t
  | array [] => ['[', ']']
  | array (item :: items) =>
      '[' :: newLine (level + 1) ++ pretty (level + 1) item ++
        prettyItems (level + 1) items ++ newLine level ++ [']']
  | object [] => ['\x7b', '\x7d']
  | object (field :: fields) =>
      '\x7b' :: newLine (level + 1) ++ prettyField (level + 1) field ++
        prettyFields (level + 1) fields ++ newLine level ++ ['\x7d']

/-- The text of further items of an array. -/
def prettyItems (level : Nat) : List Json → Text
  | [] => []
  | item :: items =>
      ',' :: newLine level ++ pretty level item ++ prettyItems level items

def prettyField (level : Nat) : Text × Json → Text
  | (key, value) => quoted key ++ [':', ' '] ++ pretty level value

def prettyFields (level : Nat) : List (Text × Json) → Text
  | [] => []
  | field :: fields =>
      ',' :: newLine level ++ prettyField level field ++ prettyFields level fields

end

end Json

end SourceMarkup
