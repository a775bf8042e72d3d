import SourceMarkup.Pattern.Basic
import SourceMarkup.Text.Digit

/-!
# The syntax of patterns

Patterns are written in the usual syntax: classes in brackets with ranges,
negation, the set operations `&&`, `--` and `~~`, and named ASCII classes; the
escapes `\d`, `\s`, `\w` and their negations, for all scripts; greedy and lazy
repetitions with bounds; groups, alternatives and anchors. Flags are set for a
group or for the rest of one: `i` ignores case, `m` lets `^` and `$` match at
lines, `s` lets a dot match a line feed and `U` swaps greedy and lazy. There are
no look-around conditions and no references to groups.

Reading goes through the text once. The groups and the brackets that are open are
kept in lists, the innermost first.
-/

namespace SourceMarkup

namespace Pattern

namespace Parser

/-! ### Escapes -/

/-- What a backslash and the characters after it write. -/
inductive Escape
  | char (c : Char)
  | set (s : CharSet)
  | anchor (condition : Anchor)

def isEscapable (c : Char) : Bool :=
  c.toNat < 128 && !Text.isAsciiAlnum c

/-- The escape of a character by its code point. -/
def codeEscape (digits rest : Text) : Option (Escape × Text) :=
  if digits.isEmpty || digits.any (fun c => (Text.hexDigit? c).isNone) then none
  else (Text.charOfCode? (Text.number 16 digits)).map fun c => (.char c, rest)

def hexEscape (width : Nat) (t : Text) : Option (Escape × Text) :=
  match t with
  | '\x7b' :: cs =>
      match cs.dropWhile (· != '\x7d') with
      | [] => none
      | _ :: rest => codeEscape (cs.takeWhile (· != '\x7d')) rest
  | _ => if t.length < width then none else codeEscape (t.take width) (t.drop width)

def escape? : Text → Option (Escape × Text)
  | [] => none
  | c :: cs =>
      match c with
      | 'd' => some (.set .decimal, cs)
      | 'D' => some (.set (.compl .decimal), cs)
      | 's' => some (.set .whiteSpace, cs)
      | 'S' => some (.set (.compl .whiteSpace), cs)
      | 'w' => some (.set .word, cs)
      | 'W' => some (.set (.compl .word), cs)
      | 'b' => some (.anchor .wordEdge, cs)
      | 'B' => some (.anchor .notWordEdge, cs)
      | '<' => some (.anchor .wordStart, cs)
      | '>' => some (.anchor .wordEnd, cs)
      | 'A' => some (.anchor .textStart, cs)
      | 'z' => some (.anchor .textEnd, cs)
      | 'n' => some (.char '\n', cs)
      | 't' => some (.char '\t', cs)
      | 'r' => some (.char '\r', cs)
      | 'a' => some (.char '\x07', cs)
      | 'f' => some (.char '\x0c', cs)
      | 'v' => some (.char '\x0b', cs)
      | 'x' => hexEscape 2 cs
      | 'u' => hexEscape 4 cs
      | 'U' => hexEscape 8 cs
      | _ => if isEscapable c then some (.char c, cs) else none

/-! ### Brackets -/

inductive SetOperation
  | inter
  | diff
  | symmDiff

def SetOperation.apply : SetOperation → CharSet → CharSet → CharSet
  | inter => .inter
  | diff => .diff
  | symmDiff => .symmDiff

/-- Brackets that are open: whether they are negated, the operation and its left
side that wait for a right side, and the sets read since, the last one first. -/
structure Bracket where
  negated : Bool
  waiting : Option (CharSet × SetOperation)
  items : List CharSet

/-- A set that also holds the other case of its letters, if case is ignored. -/
def fold (ignoreCase : Bool) (s : CharSet) : CharSet :=
  if ignoreCase then .folded s else s

def negate (negated : Bool) (s : CharSet) : CharSet :=
  if negated then .compl s else s

namespace Bracket

def push (bracket : Bracket) (s : CharSet) : Bracket :=
  { bracket with items := s :: bracket.items }

def body (ignoreCase : Bool) (bracket : Bracket) : CharSet :=
  let items := CharSet.unions bracket.items.reverse
  match bracket.waiting with
  | none => items
  | some (left, operation) =>
      operation.apply (fold ignoreCase left) (fold ignoreCase items)

def operate (ignoreCase : Bool) (bracket : Bracket) (operation : SetOperation) :
    Bracket :=
  { bracket with
    waiting := some (bracket.body ignoreCase, operation)
    items := [] }

def close (ignoreCase : Bool) (bracket : Bracket) : CharSet :=
  negate bracket.negated (fold ignoreCase (bracket.body ignoreCase))

/-- The brackets that a text opens, and the text after their opening. A caret
negates them, hyphens at the start stand for themselves, and so does a closing
bracket in the first place. -/
def opening (t : Text) : Bracket × Text :=
  let (negated, t) :=
    match t with
    | '^' :: cs => (true, cs)
    | _ => (false, t)
  let hyphens := t.takeWhile (· == '-')
  let t := t.dropWhile (· == '-')
  match hyphens, t with
  | [], ']' :: cs => (⟨negated, none, [.single ']']⟩, cs)
  | _, _ => (⟨negated, none, hyphens.map .single⟩, t)

end Bracket

def namedClass? (ignoreCase : Bool) : Text → Option (CharSet × Text)
  | ':' :: cs =>
      let (negated, cs) :=
        match cs with
        | '^' :: ds => (true, ds)
        | _ => (false, cs)
      match cs.dropWhile (· != ':') with
      | ':' :: ']' :: rest =>
          (CharSet.namedClasses.lookup (cs.takeWhile (· != ':'))).map fun s =>
            (negate negated (fold ignoreCase s), rest)
      | _ => none
  | _ => none

/-- A single member of brackets, or an escape. -/
def bracketItem? : Text → Option (Escape × Text)
  | [] => none
  | '\\' :: cs => escape? cs
  | c :: cs => some (.char c, cs)

/-- The set of a member or a range in brackets, and the text after it. -/
def bracketRange? (t : Text) : Option (CharSet × Text) :=
  match bracketItem? t with
  | none => none
  | some (item, rest) =>
      let alone : Option (CharSet × Text) :=
        match item with
        | .char c => some (.single c, rest)
        | .set s => some (s, rest)
        | .anchor _ => none
      match rest with
      | '-' :: ']' :: _ => alone
      | '-' :: '-' :: _ => alone
      | '-' :: cs =>
          match item, bracketItem? cs with
          | .char first, some (.char last, rest) =>
              if first ≤ last then some (.range first last, rest) else none
          | _, _ => none
      | _ => alone

/-- The set of the outermost brackets and the text after them. Every step reads a
character, so `fuel` suffices if it exceeds the length of the text. -/
def bracketsFrom? (ignoreCase : Bool) (fuel : Nat) (bracket : Bracket)
    (outer : List Bracket) (t : Text) : Option (CharSet × Text) :=
  match fuel with
  | 0 => none
  | fuel + 1 =>
      match t with
      | [] => none
      | '[' :: cs =>
          match namedClass? ignoreCase cs with
          | some (s, rest) =>
              bracketsFrom? ignoreCase fuel (bracket.push s) outer rest
          | none =>
              let (inner, rest) := Bracket.opening cs
              bracketsFrom? ignoreCase fuel inner (bracket :: outer) rest
      | ']' :: cs =>
          match outer with
          | [] => some (bracket.close ignoreCase, cs)
          | next :: outer =>
              bracketsFrom? ignoreCase fuel
                (next.push (bracket.close ignoreCase)) outer cs
      | '&' :: '&' :: cs =>
          bracketsFrom? ignoreCase fuel (bracket.operate ignoreCase .inter) outer cs
      | '-' :: '-' :: cs =>
          bracketsFrom? ignoreCase fuel (bracket.operate ignoreCase .diff) outer cs
      | '~' :: '~' :: cs =>
          bracketsFrom? ignoreCase fuel (bracket.operate ignoreCase .symmDiff)
            outer cs
      | _ =>
          match bracketRange? t with
          | some (s, rest) =>
              bracketsFrom? ignoreCase fuel (bracket.push s) outer rest
          | none => none

def brackets? (ignoreCase : Bool) (t : Text) : Option (CharSet × Text) :=
  let (bracket, rest) := Bracket.opening t
  bracketsFrom? ignoreCase (rest.length + 1) bracket [] rest

/-! ### Groups -/

/-- How the rest of a group is read. -/
structure Flags where
  ignoreCase : Bool := false
  lines : Bool := false
  dotAll : Bool := false
  swapGreed : Bool := false

def Flags.set? (flags : Flags) (letter : Char) (value : Bool) : Option Flags :=
  match letter with
  | 'i' => some { flags with ignoreCase := value }
  | 'm' => some { flags with lines := value }
  | 's' => some { flags with dotAll := value }
  | 'U' => some { flags with swapGreed := value }
  | _ => none

/-- The flags after setting or clearing several, each of which is named once. -/
def Flags.setAll? (flags : Flags) (letters : Text) (value : Bool) : Option Flags :=
  letters.foldlM (fun flags letter => flags.set? letter value) flags

/-- The flags after a list of letters, where those after a hyphen are cleared. -/
def Flags.update? (flags : Flags) (t : Text) : Option Flags :=
  let on := t.takeWhile (· != '-')
  match t.dropWhile (· != '-') with
  | [] => if on.Nodup then flags.setAll? on true else none
  | _ :: off =>
      if off.isEmpty || !(on ++ off).Nodup then none
      else (flags.setAll? on true).bind (·.setAll? off false)

/-- A group that is open: its flags, the alternatives read before, the last one
first, the parts of the present one, the last one first, and whether the last
part may be repeated. -/
structure Group where
  flags : Flags
  branches : List Regex
  parts : List Regex
  repeatable : Bool

namespace Group

def push (group : Group) (part : Regex) : Group :=
  { group with parts := part :: group.parts, repeatable := true }

def branch (group : Group) : Regex :=
  Regex.seqs group.parts.reverse

def next (group : Group) : Group :=
  { group with
    branches := group.branch :: group.branches
    parts := []
    repeatable := false }

def close (group : Group) : Regex :=
  Regex.alts group.next.branches.reverse

def opened (flags : Flags) : Group :=
  ⟨flags, [], [], false⟩

def withFlags (group : Group) (flags : Flags) : Group :=
  { group with flags := flags, repeatable := false }

/-- The largest regular expression that a repetition may unfold to. -/
def sizeLimit : Nat := 200000

/-- The group with its last part repeated, and the text after the repetition,
which a question mark makes lazy. -/
def repeatLast? (group : Group) (least : Nat) (most : Option Nat) (t : Text) :
    Option (Group × Text) :=
  let (lazily, rest) :=
    match t with
    | '?' :: cs => (true, cs)
    | _ => (false, t)
  match group.repeatable, group.parts with
  | true, part :: parts =>
      let rounds := most.getD least
      if rounds < least || sizeLimit < rounds * part.size || sizeLimit < rounds then
        none
      else
        let greedy := lazily == group.flags.swapGreed
        let part := part.repeated greedy least most
        some ({ group with parts := part :: parts }, rest)
  | _, _ => none

end Group

/-- A count in the bounds of a repetition, with white space around it, and the
text after it. -/
def count? (t : Text) : Option (Nat × Text) :=
  let t := t.dropWhile Text.isWhiteSpace
  let digits := t.takeWhile Text.isAsciiDigit
  if digits.isEmpty then none
  else
    some (Text.number 10 digits,
      (t.dropWhile Text.isAsciiDigit).dropWhile Text.isWhiteSpace)

def bounds? (t : Text) : Option (Nat × Option Nat × Text) :=
  match count? t with
  | none => none
  | some (least, '\x7d' :: rest) => some (least, some least, rest)
  | some (least, ',' :: '\x7d' :: rest) => some (least, none, rest)
  | some (least, ',' :: rest) =>
      match count? rest with
      | some (most, '\x7d' :: rest) => some (least, some most, rest)
      | _ => none
  | _ => none

/-- What an opening parenthesis does. -/
inductive GroupOpening
  /-- A group with its own flags opens. -/
  | group (flags : Flags)
  /-- The flags of the present group change. -/
  | flags (flags : Flags)

def isGroupName (t : Text) : Bool :=
  match t with
  | [] => false
  | c :: cs =>
      (c == '_' || Text.isAsciiLetter c) &&
        cs.all fun c => c == '_' || c == '.' || c == '[' || c == ']' ||
          Text.isAsciiAlnum c

def groupOpening? (flags : Flags) : Text → Option (GroupOpening × Text)
  | '?' :: 'P' :: '<' :: cs => named cs
  | '?' :: '<' :: cs => named cs
  | '?' :: cs =>
      let letters := cs.takeWhile fun c => c != ':' && c != ')'
      match cs.dropWhile fun c => c != ':' && c != ')' with
      | ':' :: rest =>
          if letters.isEmpty then some (.group flags, rest)
          else (flags.update? letters).map fun flags => (.group flags, rest)
      | ')' :: rest =>
          if letters.isEmpty then none
          else (flags.update? letters).map fun flags => (.flags flags, rest)
      | _ => none
  | cs => some (.group flags, cs)
where
  named (cs : Text) : Option (GroupOpening × Text) :=
    match cs.dropWhile (· != '>') with
    | [] => none
    | _ :: rest =>
        if isGroupName (cs.takeWhile (· != '>')) then some (.group flags, rest)
        else none

def literal (flags : Flags) (c : Char) : Regex :=
  .one (fold flags.ignoreCase (.single c))

def Escape.regex (flags : Flags) : Escape → Regex
  | .char c => literal flags c
  | .set s => .one s
  | .anchor condition => .anchor condition

def dot (flags : Flags) : Regex :=
  .one (if flags.dotAll then .any else .compl (.single '\n'))

/-- The groups that are open: the innermost one, and those around it from the
inside. -/
structure Open where
  group : Group
  outer : List Group

def Open.push (groups : Open) (part : Regex) : Open :=
  { groups with group := groups.group.push part }

def Open.repeatLast? (groups : Open) (least : Nat) (most : Option Nat) (t : Text) :
    Option (Open × Text) :=
  (groups.group.repeatLast? least most t).map fun (group, rest) =>
    ({ groups with group := group }, rest)

/-- The open groups after the part of a pattern that starts with `c`, and the text
after that part. -/
def step? (groups : Open) (c : Char) (cs : Text) : Option (Open × Text) :=
  let flags := groups.group.flags
  match c with
  | '(' =>
      (groupOpening? flags cs).map fun
        | (.group flags, rest) =>
            (⟨.opened flags, groups.group :: groups.outer⟩, rest)
        | (.flags flags, rest) =>
            ({ groups with group := groups.group.withFlags flags }, rest)
  | ')' =>
      match groups.outer with
      | [] => none
      | next :: outer => some (⟨next.push groups.group.close, outer⟩, cs)
  | '|' => some ({ groups with group := groups.group.next }, cs)
  | '*' => groups.repeatLast? 0 none cs
  | '+' => groups.repeatLast? 1 none cs
  | '?' => groups.repeatLast? 0 (some 1) cs
  | '\x7b' =>
      (bounds? cs).bind fun (least, most, rest) =>
        groups.repeatLast? least most rest
  | '[' =>
      (brackets? flags.ignoreCase cs).map fun (s, rest) =>
        (groups.push (.one s), rest)
  | '\\' =>
      (escape? cs).map fun (escape, rest) =>
        (groups.push (escape.regex flags), rest)
  | '.' => some (groups.push (dot flags), cs)
  | '^' =>
      some (groups.push (.anchor (if flags.lines then .lineStart else .textStart)), cs)
  | '$' =>
      some (groups.push (.anchor (if flags.lines then .lineEnd else .textEnd)), cs)
  | _ => some (groups.push (literal flags c), cs)

/-- The regular expression of the rest of a pattern. Every step reads a character,
so `fuel` suffices if it exceeds the length of the text. -/
def parseFrom? : Nat → Open → Text → Option Regex
  | 0, _, _ => none
  | _ + 1, groups, [] =>
      if groups.outer.isEmpty then some groups.group.close else none
  | fuel + 1, groups, c :: cs =>
      match step? groups c cs with
      | some (groups, rest) => parseFrom? fuel groups rest
      | none => none

end Parser

def parse? (source : Text) : Option Regex :=
  Parser.parseFrom? (source.length + 1) ⟨.opened {}, []⟩ source

end Pattern

end SourceMarkup
