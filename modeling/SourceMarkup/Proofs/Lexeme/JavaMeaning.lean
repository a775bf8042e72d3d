import Mathlib.Data.List.Basic
import SourceMarkup.Proofs.Lexeme.Java

/-!
# What the constructs of Java are

A lexer counts characters from the left. What it finds can be told without counting: a
comment ends with the first end of it, a literal holds no end that is not escaped, and a
number or a word goes on as long as it can. `Means` says so for each kind, of a part of a
source between what stands before it and what stands after it.

All of that is told by the part and what follows, except that a reserved word is no part
of a longer word that began before it. `Borders` carries this through a source: where a
construct ends with a character of a word, no letter follows.
-/

namespace SourceMarkup

namespace Java

open Lexeme

variable {before text after : Text} {c : Char} {cs : Text}

/-! ### Kinds of constructs -/

def EndOfLine (after : Text) : Prop :=
  after = [] ∨ ['\n'] <+: after

/-- A text in which a terminator stands at the end, or nowhere because the source
ends first. -/
structure EndsThrough (terminator text after : Text) : Prop where
  first : ∀ front back, text = front ++ (terminator ++ back) → back = []
  ending : terminator <:+ text ∨ after = []

/-- A part of a literal that none of `ends` begins in. A backslash is passed together
with the character after it, whichever it is. -/
inductive Passes (ends : List Text) : Text → Text → Prop
  | nil (after : Text) : Passes ends [] after
  | escape (c : Char) {part after : Text} (h : Passes ends part after) :
      Passes ends ('\\' :: c :: part) after
  /-- The source ends with a backslash. -/
  | backslash : Passes ends ['\\'] []
  | plain {c : Char} {part after : Text} (hc : c ≠ '\\')
      (hend : ∀ stop ∈ ends, ¬ stop <+: c :: (part ++ after))
      (h : Passes ends part after) : Passes ends (c :: part) after

structure LineComment (text after : Text) : Prop where
  opening : ['/', '/'] <+: text
  inside : '\n' ∉ text
  ending : EndOfLine after

structure BlockComment (text after : Text) : Prop where
  body : ∃ body, text = '/' :: '*' :: body ∧ EndsThrough ['*', '/'] body after
  opening : ['/', '*', '*'] <+: text → text = ['/', '*', '*', '/']

/-- A text block, from its three quotes to the next three that are not escaped, or to
the end of the source. -/
def TextBlock (text after : Text) : Prop :=
  ∃ part close, text = blockQuotes ++ (part ++ close) ∧
    Passes [blockQuotes] part (close ++ after) ∧
    (close = blockQuotes ∨ close = [] ∧ after = [])

/-- A literal from its quote to the next one that is not escaped, if there is one before
the end of the line. -/
def Quoted (quote : Char) (text after : Text) : Prop :=
  ∃ part close, text = quote :: (part ++ close) ∧
    Passes [['\n'], [quote]] part (close ++ after) ∧
    (close = [quote] ∨ close = [] ∧ EndOfLine after)

def exponentOf (text : Text) : Char → Bool :=
  if ['0', 'x'].isPrefixOf text || ['0', 'X'].isPrefixOf text then isHexExponent
  else isDecimalExponent

def IsSign (c : Char) : Prop :=
  c = '+' ∨ c = '-'

/-- Every sign in a text follows directly after a character of a kind. -/
def SignsFollow (p : Char → Bool) (text : Text) : Prop :=
  ∀ front c back, text = front ++ c :: back → IsSign c → front.getLast?.any p = true

/-- A part of a number that goes on as far as it can. -/
structure NumberRun (isExponent : Char → Bool) (text after : Text) : Prop where
  inside : ∀ c ∈ text, isNumberPart c = true ∨ IsSign c
  signs : SignsFollow isExponent text
  ending : after.head?.any isNumberPart = false

structure Number (text after : Text) : Prop
    extends NumberRun (exponentOf text) text after where
  opening : text.head?.any Text.isAsciiDigit = true ∨
    ∃ cs, text = '.' :: cs ∧ cs.head?.any Text.isAsciiDigit = true

/-- Whether what starts after a character may be part of a word that holds it. -/
def joinsWord (c : Char) : Bool :=
  isIdentifierPart c || c == '@'

structure Keyword (before text after : Text) : Prop where
  word : text = "@interface".toList ∨
    text ∈ keywords ∧ before.getLast?.any joinsWord = false
  ending : after.head?.any isIdentifierPart = false

structure AnnotationName (text after : Text) : Prop where
  name : ∃ name, text = '@' :: name ∧ name.head?.any isIdentifierStart = true ∧
    (∀ c ∈ name, isIdentifierPart c = true) ∧ name ≠ "interface".toList
  ending : after.head?.any isIdentifierPart = false

/-- What a part of a source is that has a kind, where `before` and `after` are the rest
of the source. Of the parts of javadoc comments nothing is said here. -/
def Means (kind : TokenKind) (before text after : Text) : Prop :=
  match kind with
  | .lineComment => LineComment text after
  | .blockComment => BlockComment text after
  | .stringLiteral =>
      (blockQuotes <+: text → TextBlock text after) ∧
        (¬ blockQuotes <+: text → Quoted '"' text after)
  | .charLiteral => Quoted '\'' text after
  | .number => Number text after
  | .keyword => Keyword before text after
  | .annotationName => AnnotationName text after
  | .javadoc | .javadocTag | .plain => True
  | _ => False

/-- After a character of a word, no letter goes on with it. -/
def Borders (before after : Text) : Prop :=
  before.getLast?.any joinsWord = true → after.head?.any Text.isAsciiLetter = false

/-! ### Borders -/

theorem head?_any_of_imp {p q : Char → Bool} (hpq : ∀ c, q c = true → p c = true)
    (h : after.head?.any p = false) : after.head?.any q = false := by
  cases after with
  | nil => rfl
  | cons c cs =>
      rw [List.head?_cons, Option.any_some, Bool.eq_false_iff] at h ⊢
      exact fun hq => h (hpq c hq)

theorem borders_of_ending {p : Char → Bool}
    (hp : ∀ c, Text.isAsciiLetter c = true → p c = true)
    (h : after.head?.any p = false) : Borders before after :=
  fun _ => head?_any_of_imp hp h

theorem borders_of_getLast? (hc : joinsWord c = false) (h : before.getLast? = some c) :
    Borders before after := by
  intro hjoins
  rw [h, Option.any_some, hc] at hjoins
  contradiction

theorem borders_nil (before : Text) : Borders before [] :=
  fun _ => rfl

theorem EndOfLine.borders (h : EndOfLine after) (before : Text) : Borders before after := by
  rcases h with rfl | ⟨rest, rfl⟩
  · exact borders_nil before
  · exact fun _ => rfl

theorem Borders.append (h : Borders text after) (hne : text ≠ []) (before : Text) :
    Borders (before ++ text) after := by
  unfold Borders at h ⊢
  rwa [List.getLast?_append_of_ne_nil before hne]

/-! ### Literals -/

theorem exists_passes_quoted (quote : Char) (t : Text) :
    ∃ part close, t.take (quotedLength quote t) = part ++ close ∧
      Passes [['\n'], [quote]] part (close ++ t.drop (quotedLength quote t)) ∧
      (close = [quote] ∨ close = [] ∧ EndOfLine (t.drop (quotedLength quote t))) := by
  fun_induction quotedLength quote t with
  | case1 => exact ⟨[], [], rfl, .nil _, .inr ⟨rfl, .inl rfl⟩⟩
  | case2 => exact ⟨['\\'], [], rfl, .backslash, .inr ⟨rfl, .inl rfl⟩⟩
  | case3 d ds ih =>
      obtain ⟨part, close, htake, hpart, hclose⟩ := ih
      refine ⟨'\\' :: d :: part, close, ?_, .escape d hpart, hclose⟩
      rw [List.take_succ_cons, List.take_succ_cons, htake]
      rfl
  | case4 cs => exact ⟨[], [], rfl, .nil _, .inr ⟨rfl, .inr ⟨cs, rfl⟩⟩⟩
  | case5 cs => exact ⟨[], [quote], rfl, .nil _, .inl rfl⟩
  | case6 c cs hslash hline hquote ih =>
      obtain ⟨part, close, htake, hpart, hclose⟩ := ih
      refine ⟨c :: part, close, ?_, .plain hslash ?_ hpart, hclose⟩
      · rw [List.take_succ_cons, htake]
        rfl
      · simp [Ne.symm hline, Ne.symm hquote]

theorem exists_passes_textBlock (t : Text) :
    ∃ part close, t.take (textBlockLength t) = part ++ close ∧
      Passes [blockQuotes] part (close ++ t.drop (textBlockLength t)) ∧
      (close = blockQuotes ∨ close = [] ∧ t.drop (textBlockLength t) = []) := by
  fun_induction textBlockLength t with
  | case1 => exact ⟨[], [], rfl, .nil _, .inr ⟨rfl, rfl⟩⟩
  | case2 => exact ⟨['\\'], [], rfl, .backslash, .inr ⟨rfl, rfl⟩⟩
  | case3 d ds ih =>
      obtain ⟨part, close, htake, hpart, hclose⟩ := ih
      refine ⟨'\\' :: d :: part, close, ?_, .escape d hpart, hclose⟩
      rw [List.take_succ_cons, List.take_succ_cons, htake]
      rfl
  | case4 c cs hslash hquotes =>
      obtain ⟨rest, hrest⟩ := List.isPrefixOf_iff_prefix.1 hquotes
      refine ⟨[], blockQuotes, ?_, .nil _, .inl rfl⟩
      rw [← hrest, List.take_left, List.nil_append]
  | case5 c cs hslash hquotes ih =>
      obtain ⟨part, close, htake, hpart, hclose⟩ := ih
      refine ⟨c :: part, close, ?_, .plain hslash ?_ hpart, hclose⟩
      · rw [List.take_succ_cons, htake]
        rfl
      · have hcs : part ++ (close ++ cs.drop (textBlockLength cs)) = cs := by
          rw [← List.append_assoc, ← htake, List.take_append_drop]
        rw [List.drop_succ_cons, hcs, List.forall_mem_singleton,
          ← List.isPrefixOf_iff_prefix]
        exact hquotes

theorem quoted_means (quote : Char) (cs : Text) :
    Quoted quote (quote :: cs.take (quotedLength quote cs))
      (cs.drop (quotedLength quote cs)) := by
  obtain ⟨part, close, htake, hpart, hclose⟩ := exists_passes_quoted quote cs
  exact ⟨part, close, by rw [htake], hpart, hclose⟩

theorem textBlock_means (cs : Text) :
    TextBlock (blockQuotes ++ cs.take (textBlockLength cs))
      (cs.drop (textBlockLength cs)) := by
  obtain ⟨part, close, htake, hpart, hclose⟩ := exists_passes_textBlock cs
  exact ⟨part, close, by rw [htake], hpart, hclose⟩

theorem Quoted.borders {quote : Char} (hquote : joinsWord quote = false)
    (h : Quoted quote text after) : Borders text after := by
  obtain ⟨part, close, rfl, -, rfl | ⟨-, hend⟩⟩ := h
  · refine borders_of_getLast? hquote ?_
    rw [← List.cons_append, List.getLast?_append_cons]
    rfl
  · exact hend.borders _

theorem TextBlock.borders (h : TextBlock text after) : Borders text after := by
  obtain ⟨part, close, rfl, -, rfl | ⟨-, rfl⟩⟩ := h
  · refine borders_of_getLast? (c := '"') (by decide) ?_
    rw [← List.append_assoc, blockQuotes, List.getLast?_append_cons]
    rfl
  · exact borders_nil _

/-! ### Comments -/

theorem endsThrough_throughLength {d : Char} {ds : Text} (t : Text) :
    EndsThrough (d :: ds) (t.take (throughLength (d :: ds) t))
      (t.drop (throughLength (d :: ds) t)) := by
  induction t with
  | nil => exact ⟨by simp, .inr rfl⟩
  | cons c cs ih =>
      unfold throughLength
      split
      · next hstarts =>
          obtain ⟨rest, hrest⟩ := List.isPrefixOf_iff_prefix.1 hstarts
          rw [← hrest, List.take_left, List.drop_left]
          refine ⟨fun front back h => ?_, .inl (List.suffix_refl _)⟩
          have hlength := congrArg List.length h
          simp only [List.length_append] at hlength
          exact List.length_eq_zero_iff.1 (by omega)
      · next hstarts =>
          rw [List.take_succ_cons, List.drop_succ_cons]
          refine ⟨fun front back h => ?_,
            ih.ending.imp_left fun h => h.trans (List.suffix_cons c _)⟩
          cases front with
          | nil =>
              refine absurd (List.isPrefixOf_iff_prefix.2 ?_) hstarts
              have hstart : d :: ds <+: c :: cs.take (throughLength (d :: ds) cs) :=
                ⟨back, h.symm⟩
              exact hstart.trans (List.cons_prefix_cons.2 ⟨rfl, List.take_prefix _ _⟩)
          | cons e front => exact ih.first front back (List.cons.inj h).2

theorem lineComment_means (cs : Text) :
    LineComment ('/' :: '/' :: cs.takeWhile (· != '\n')) (cs.dropWhile (· != '\n')) where
  opening := ⟨cs.takeWhile (· != '\n'), rfl⟩
  inside := by
    intro h
    have hline : '\n' ∈ cs.takeWhile (· != '\n') := by simpa using h
    simpa using List.mem_takeWhile_imp hline
  ending := by
    have hhead := head?_any_dropWhile (· != '\n') cs
    cases hdrop : cs.dropWhile (· != '\n') with
    | nil => exact .inl rfl
    | cons c ds =>
        rw [hdrop] at hhead
        have hc : c = '\n' := by simpa using hhead
        exact .inr ⟨ds, by rw [hc]; rfl⟩

theorem LineComment.borders (h : LineComment text after) : Borders text after :=
  h.ending.borders text

theorem EndsThrough.borders {d : Char} {ds : Text} (hd : joinsWord d = false)
    (h : EndsThrough (ds ++ [d]) text after) (front : Text) :
    Borders (front ++ text) after := by
  rcases h.ending with ⟨rest, rfl⟩ | rfl
  · refine borders_of_getLast? hd ?_
    rw [← List.append_assoc, ← List.append_assoc, List.getLast?_concat]
  · exact borders_nil _

theorem eq_of_isJavadocBody_eq_false (h : isJavadocBody cs = false) (hstar : ['*'] <+: cs) :
    ∃ ds, cs = '*' :: '/' :: ds := by
  rw [isJavadocBody_eq, List.isPrefixOf_iff_prefix.2 hstar, Bool.true_and,
    Bool.not_eq_false'] at h
  obtain ⟨ds, hds⟩ := List.isPrefixOf_iff_prefix.1 h
  exact ⟨ds, hds.symm⟩

theorem blockComment_means (h : isJavadocBody cs = false) :
    BlockComment ('/' :: '*' :: cs.take (throughLength ['*', '/'] cs))
      (cs.drop (throughLength ['*', '/'] cs)) where
  body := ⟨_, rfl, endsThrough_throughLength cs⟩
  opening := by
    rintro ⟨rest, hrest⟩
    have htake : cs.take (throughLength ['*', '/'] cs) = '*' :: rest := by
      simpa using hrest.symm
    have hstar : ['*'] <+: cs :=
      List.IsPrefix.trans ⟨rest, htake.symm⟩ (List.take_prefix _ _)
    obtain ⟨ds, rfl⟩ := eq_of_isJavadocBody_eq_false h hstar
    rfl

/-! ### Numbers -/

theorem not_isSign_of_isNumberPart (h : isNumberPart c = true) : ¬ IsSign c := by
  rintro (rfl | rfl)
  · exact absurd h (by decide)
  · exact absurd h (by decide)

theorem SignsFollow.nil (p : Char → Bool) : SignsFollow p [] := by
  intro front c back h
  simp at h

theorem SignsFollow.cons {p : Char → Bool} (h : SignsFollow p text) (hc : ¬ IsSign c) :
    SignsFollow p (c :: text) := by
  intro front d back hsplit hd
  cases front with
  | nil => exact absurd ((List.cons.inj hsplit).1 ▸ hd) hc
  | cons e front =>
      have hfront := h front d back (List.cons.inj hsplit).2 hd
      cases front with
      | nil => simp at hfront
      | cons f front => rwa [List.getLast?_cons_cons]

theorem SignsFollow.exponent {p : Char → Bool} (h : SignsFollow p text) (hc : ¬ IsSign c)
    (hp : p c = true) (sign : Char) : SignsFollow p (c :: sign :: text) := by
  intro front d back hsplit hd
  rcases front with _ | ⟨e, _ | ⟨f, front⟩⟩
  · exact absurd ((List.cons.inj hsplit).1 ▸ hd) hc
  · obtain ⟨rfl, -⟩ := List.cons.inj hsplit
    exact hp
  · have hfront := h front d back (List.cons.inj (List.cons.inj hsplit).2).2 hd
    cases front with
    | nil => simp at hfront
    | cons g front => rwa [List.getLast?_cons_cons, List.getLast?_cons_cons]

theorem isSign_of_startsWithSign (h : startsWithSign (c :: cs) = true) : IsSign c := by
  rw [startsWithSign_cons] at h
  simpa [IsSign] using h

theorem NumberRun.cons {isExponent : Char → Bool} (h : NumberRun isExponent text after)
    (hc : isNumberPart c = true) : NumberRun isExponent (c :: text) after where
  inside := List.forall_mem_cons.2 ⟨.inl hc, h.inside⟩
  signs := h.signs.cons (not_isSign_of_isNumberPart hc)
  ending := h.ending

theorem NumberRun.exponent {isExponent : Char → Bool} (h : NumberRun isExponent text after)
    (hc : isNumberPart c = true) (hexponent : isExponent c = true) {sign : Char}
    (hsign : IsSign sign) : NumberRun isExponent (c :: sign :: text) after where
  inside := List.forall_mem_cons.2 ⟨.inl hc, List.forall_mem_cons.2 ⟨.inr hsign, h.inside⟩⟩
  signs := h.signs.exponent (not_isSign_of_isNumberPart hc) hexponent sign
  ending := h.ending

theorem numberRun_numberLength {isExponent : Char → Bool}
    (hexponent : ∀ c, isExponent c = true → isNumberPart c = true) (t : Text) :
    NumberRun isExponent (t.take (numberLength isExponent t))
      (t.drop (numberLength isExponent t)) := by
  fun_induction numberLength isExponent t with
  | case1 => exact ⟨by simp, .nil isExponent, rfl⟩
  | case2 c h => simp [startsWithSign] at h
  | case3 c d ds h ih =>
      obtain ⟨hc, hd⟩ := Bool.and_eq_true_iff.1 h
      exact ih.exponent (hexponent c hc) hc (isSign_of_startsWithSign hd)
  | case4 c cs h hpart ih => exact ih.cons hpart
  | case5 c cs h hpart => exact ⟨by simp, .nil isExponent, by simpa using hpart⟩

theorem isNumberPart_of_isDecimalExponent (h : isDecimalExponent c = true) :
    isNumberPart c = true := by
  rcases Bool.or_eq_true_iff.1 h with h | h <;> rw [eq_of_beq h] <;> decide

theorem isNumberPart_of_isHexExponent (h : isHexExponent c = true) :
    isNumberPart c = true := by
  rcases Bool.or_eq_true_iff.1 h with h | h <;> rw [eq_of_beq h] <;> decide

theorem numberRun_decimal (cs : Text) :
    NumberRun isDecimalExponent (cs.take (numberLength isDecimalExponent cs))
      (cs.drop (numberLength isDecimalExponent cs)) :=
  numberRun_numberLength (fun _ => isNumberPart_of_isDecimalExponent) cs

theorem numberRun_hex (cs : Text) :
    NumberRun isHexExponent (cs.take (numberLength isHexExponent cs))
      (cs.drop (numberLength isHexExponent cs)) :=
  numberRun_numberLength (fun _ => isNumberPart_of_isHexExponent) cs

theorem exponentOf_cons (c : Char) (cs : Text) :
    exponentOf (c :: cs) =
      if c = '0' ∧ (cs.head? = some 'x' ∨ cs.head? = some 'X') then isHexExponent
      else isDecimalExponent := by
  cases cs with
  | nil => simp [exponentOf]
  | cons d ds =>
      simp [exponentOf, and_or_left, eq_comm (a := '0'), eq_comm (a := 'x'),
        eq_comm (a := 'X')]

theorem NumberRun.number {isExponent : Char → Bool} (h : NumberRun isExponent text after)
    (hexponent : exponentOf text = isExponent)
    (hopening : text.head?.any Text.isAsciiDigit = true ∨
      ∃ cs, text = '.' :: cs ∧ cs.head?.any Text.isAsciiDigit = true) :
    Number text after :=
  ⟨hexponent ▸ h, hopening⟩

theorem head?_take_numberLength {isExponent : Char → Bool} (hc : isNumberPart c = true)
    (cs : Text) :
    ((c :: cs).take (numberLength isExponent (c :: cs))).head? = some c := by
  unfold numberLength
  split
  · split <;> rfl
  · rfl

/-- A number with no base prefix. -/
theorem number_means_decimal (cs : Text) (hc : isNumberPart c = true)
    (hbase : ¬ (c = '0' ∧ (cs.head? = some 'x' ∨ cs.head? = some 'X')))
    (hopening : Text.isAsciiDigit c = true ∨
      c = '.' ∧ cs.head?.any Text.isAsciiDigit = true) :
    Number (c :: cs.take (numberLength isDecimalExponent cs))
      (cs.drop (numberLength isDecimalExponent cs)) := by
  refine ((numberRun_decimal cs).cons hc).number ?_ ?_
  · rw [exponentOf_cons, if_neg]
    rintro ⟨hzero, hx⟩
    have hhead : ∀ d, (cs.take (numberLength isDecimalExponent cs)).head? = some d →
        cs.head? = some d := by
      intro d hd
      rw [List.head?_take] at hd
      split at hd
      · contradiction
      · exact hd
    exact hbase ⟨hzero, hx.imp (hhead _) (hhead _)⟩
  · rcases hopening with hdigit | ⟨rfl, hdigit⟩
    · exact .inl hdigit
    · refine .inr ⟨_, rfl, ?_⟩
      cases cs with
      | nil => contradiction
      | cons d ds =>
          rw [head?_take_numberLength (isNumberPart_of_isAsciiDigit hdigit)]
          exact hdigit

theorem number_means_hex {x : Char} (hx : x = 'x' ∨ x = 'X') (cs : Text) :
    Number ('0' :: x :: cs.take (numberLength isHexExponent cs))
      (cs.drop (numberLength isHexExponent cs)) := by
  have hpart : isNumberPart x = true := by rcases hx with rfl | rfl <;> decide
  refine (((numberRun_hex cs).cons hpart).cons (by decide)).number ?_ (.inl rfl)
  rw [exponentOf_cons, if_pos ⟨rfl, by simpa using hx⟩]

theorem number_means (hc : Text.isAsciiDigit c = true) (cs : Text) :
    Number (c :: cs.take (numberTailLength c cs)) (cs.drop (numberTailLength c cs)) := by
  rcases base_cases c cs with ⟨rfl, x, ds, hx, rfl⟩ | hdecimal
  · rw [numberTailLength_hex hx]
    exact number_means_hex hx ds
  · rw [numberTailLength_decimal hdecimal]
    exact number_means_decimal cs (isNumberPart_of_isAsciiDigit hc) hdecimal (.inl hc)

theorem Number.borders (h : Number text after) : Borders text after :=
  borders_of_ending (fun c hc => by simp [isNumberPart, Text.isAsciiAlnum, hc]) h.ending

/-! ### Words -/

theorem isIdentifierPart_of_isAsciiLetter (h : Text.isAsciiLetter c = true) :
    isIdentifierPart c = true := by
  simp [isIdentifierPart, isIdentifierStart, h]

theorem borders_of_word (h : after.head?.any isIdentifierPart = false) (before : Text) :
    Borders before after :=
  borders_of_ending (fun _ => isIdentifierPart_of_isAsciiLetter) h

theorem isAsciiLetter_of_mem_keywords (h : c :: cs ∈ keywords) :
    Text.isAsciiLetter c = true := by
  have hall : ∀ word ∈ keywords, word.head?.any Text.isAsciiLetter = true := by decide
  exact hall _ h

theorem keyword_means (h : Borders before (c :: cs))
    (hword : c :: cs.takeWhile isIdentifierPart ∈ keywords) :
    Keyword before (c :: cs.takeWhile isIdentifierPart) (cs.dropWhile isIdentifierPart) where
  word := by
    refine .inr ⟨hword, ?_⟩
    rw [Bool.eq_false_iff]
    intro hbefore
    have hletter : Text.isAsciiLetter c = false := h hbefore
    rw [isAsciiLetter_of_mem_keywords hword] at hletter
    contradiction
  ending := head?_any_dropWhile isIdentifierPart cs

theorem interface_means (before cs : Text)
    (hname : cs.takeWhile isIdentifierPart = "interface".toList) :
    Keyword before ('@' :: cs.takeWhile isIdentifierPart) (cs.dropWhile isIdentifierPart) where
  word := .inl (by rw [hname]; rfl)
  ending := head?_any_dropWhile isIdentifierPart cs

theorem annotationName_means (hcs : cs.head?.any isIdentifierStart = true)
    (hname : cs.takeWhile isIdentifierPart ≠ "interface".toList) :
    AnnotationName ('@' :: cs.takeWhile isIdentifierPart)
      (cs.dropWhile isIdentifierPart) where
  name := by
    refine ⟨_, rfl, ?_, fun _ => List.mem_takeWhile_imp, hname⟩
    cases cs with
    | nil => contradiction
    | cons d ds =>
        have hd : isIdentifierPart d = true := by
          have hstart : isIdentifierStart d = true := hcs
          simp [isIdentifierPart, hstart]
        rwa [List.takeWhile_cons_of_pos hd]
  ending := head?_any_dropWhile isIdentifierPart cs

/-! ### Constructs -/

/-- A construct that starts with `c` after `before` means what its kind says, and is set
off from what follows it. -/
def Sound (before : Text) (c : Char) (cs : Text) (chosen : TokenKind × Nat) : Prop :=
  Means chosen.1 before (c :: cs.take chosen.2) (cs.drop chosen.2) ∧
    Borders (c :: cs.take chosen.2) (cs.drop chosen.2)

theorem sound_slash (before cs : Text) : Sound before '/' cs (construct '/' cs) := by
  unfold construct
  rw [if_pos rfl]
  split
  · next ds =>
      rw [Sound, take_runLength, drop_runLength]
      exact ⟨lineComment_means ds, (lineComment_means ds).borders⟩
  · next ds =>
      have hends : EndsThrough (['*'] ++ ['/']) (ds.take (throughLength ['*', '/'] ds))
          (ds.drop (throughLength ['*', '/'] ds)) := endsThrough_throughLength ds
      have hborders := hends.borders (by decide) ['/', '*']
      cases hbody : isJavadocBody ds with
      | true => exact ⟨trivial, hborders⟩
      | false => exact ⟨blockComment_means hbody, hborders⟩
  · exact ⟨trivial, borders_of_getLast? (c := '/') (by decide) rfl⟩

theorem sound_quote (before cs : Text) : Sound before '"' cs (construct '"' cs) := by
  unfold construct
  rw [if_neg (by decide), if_pos rfl]
  split
  · next ds =>
      have hblock := textBlock_means ds
      refine ⟨⟨fun _ => hblock, fun hnot => ?_⟩, hblock.borders⟩
      exact absurd ⟨_, rfl⟩ hnot
  · next hquotes =>
      have hquoted := quoted_means '"' cs
      refine ⟨⟨fun hblock => ?_, fun _ => hquoted⟩, hquoted.borders (by decide)⟩
      have hstarts : blockQuotes <+: '"' :: cs :=
        hblock.trans (List.cons_prefix_cons.2 ⟨rfl, List.take_prefix _ _⟩)
      obtain ⟨ds, hds⟩ := hstarts
      exact absurd (List.cons.inj hds).2.symm (hquotes ds)

theorem sound_word {kind : TokenKind}
    (h : Means kind before (c :: cs.takeWhile isIdentifierPart)
      (cs.dropWhile isIdentifierPart)) :
    Sound before c cs (kind, (cs.takeWhile isIdentifierPart).length) := by
  have htake : cs.take (cs.takeWhile isIdentifierPart).length =
      cs.takeWhile isIdentifierPart := take_runLength isIdentifierPart cs
  have hdrop : cs.drop (cs.takeWhile isIdentifierPart).length =
      cs.dropWhile isIdentifierPart := drop_runLength isIdentifierPart cs
  rw [Sound, htake, hdrop]
  exact ⟨h, borders_of_word (head?_any_dropWhile isIdentifierPart cs) _⟩

/-- A character that begins nothing else stands for itself. -/
theorem sound_single (hdigit : Text.isAsciiDigit c = false)
    (hstart : isIdentifierStart c = false)
    (hat : c = '@' → cs.head?.any isIdentifierStart = false) :
    Sound before c cs (.plain, 0) := by
  refine ⟨trivial, ?_⟩
  by_cases hc : c = '@'
  · exact borders_of_ending (fun d hd => by simp [isIdentifierStart, hd]) (hat hc)
  · exact borders_of_getLast? (by simp [joinsWord, isIdentifierPart, hdigit, hstart, hc]) rfl

theorem sound_construct (h : Borders before (c :: cs)) :
    Sound before c cs (construct c cs) := by
  by_cases hslash : c = '/'
  · subst hslash
    exact sound_slash before cs
  by_cases hquote : c = '"'
  · subst hquote
    exact sound_quote before cs
  unfold construct
  rw [if_neg hslash, if_neg hquote]
  split
  · next hc =>
      subst hc
      have hquoted := quoted_means '\'' cs
      exact ⟨hquoted, hquoted.borders (by decide)⟩
  split
  · next hdigit => exact ⟨number_means hdigit cs, (number_means hdigit cs).borders⟩
  split
  · next hdot =>
      obtain ⟨hc, hdigit⟩ := Bool.and_eq_true_iff.1 hdot
      obtain rfl : c = '.' := by simpa using hc
      have hnumber := number_means_decimal (c := '.') cs (by decide)
        (fun h => absurd h.1 (by decide)) (.inr ⟨rfl, hdigit⟩)
      exact ⟨hnumber, hnumber.borders⟩
  split
  · next hat =>
      obtain ⟨hc, hstart⟩ := Bool.and_eq_true_iff.1 hat
      obtain rfl : c = '@' := by simpa using hc
      refine sound_word ?_
      split
      · next hname => exact interface_means before cs hname
      · next hname => exact annotationName_means hstart hname
  split
  · next hstart =>
      refine sound_word ?_
      split
      · next hword => exact keyword_means h (List.contains_iff_mem.1 hword)
      · trivial
  · next hdigit _ hat hstart =>
      refine sound_single (by simpa using hdigit) (by simpa using hstart) fun hc => ?_
      simpa [hc] using hat

/-! ### Sources -/

theorem kind_of_mem_javadocPart {l : Lexeme} (h : l ∈ javadocPart text) :
    l.kind = .javadoc := by
  unfold javadocPart at h
  split at h
  · exact absurd h List.not_mem_nil
  · rw [List.mem_singleton.1 h]

theorem kind_of_mem_splitTags {previous : Char} {l : Lexeme}
    (h : l ∈ (splitTags previous text).2) : l.kind = .javadoc ∨ l.kind = .javadocTag := by
  fun_induction splitTags previous text with
  | case1 => exact absurd h List.not_mem_nil
  | case2 previous c cs htag n part rest hsplit ih =>
      rw [hsplit] at ih
      rcases List.mem_cons.1 h with rfl | h
      · exact .inr rfl
      · exact (List.mem_append.1 h).elim (fun h => .inl (kind_of_mem_javadocPart h)) ih
  | case3 previous c cs htag part rest hsplit ih =>
      rw [hsplit] at ih
      exact ih h

theorem kind_of_mem_splitJavadoc {l m : Lexeme} (h : l ∈ splitJavadoc m)
    (hm : m.kind = .javadoc) : l.kind = .javadoc ∨ l.kind = .javadocTag := by
  rw [splitJavadoc, if_pos hm] at h
  exact (List.mem_append.1 h).elim (fun h => .inl (kind_of_mem_javadocPart h))
    kind_of_mem_splitTags

/-- A lexeme of a construct is a part of a javadoc comment, or the whole construct. -/
theorem splitJavadoc_eq_append {front rest : List Lexeme} {l m : Lexeme}
    (h : splitJavadoc m = front ++ l :: rest) :
    (l.kind = .javadoc ∨ l.kind = .javadocTag) ∨ front = [] ∧ l = m ∧ rest = [] := by
  by_cases hm : m.kind = .javadoc
  · have hl : l ∈ splitJavadoc m := by
      rw [h]
      exact List.mem_append_right front List.mem_cons_self
    exact .inl (kind_of_mem_splitJavadoc hl hm)
  · obtain ⟨kind, text⟩ := m
    rw [splitJavadoc_of_ne hm, eq_comm, List.append_eq_singleton_iff] at h
    obtain ⟨rfl, hl⟩ | ⟨-, hl⟩ := h
    · obtain ⟨rfl, rfl⟩ := List.cons.inj hl
      exact .inr ⟨rfl, rfl, rfl⟩
    · cases hl

/-- A lexeme stands among those of a later construct, or in the first one. -/
theorem lexemes_cons_eq_append {c : Char} {cs : Text} {kind : TokenKind} {n : Nat}
    {front back : List Lexeme} {l : Lexeme} (hconstruct : construct c cs = (kind, n))
    (h : lexemes (c :: cs) = front ++ l :: back) :
    (∃ later, front = splitJavadoc ⟨kind, c :: cs.take n⟩ ++ later ∧
        lexemes (cs.drop n) = later ++ l :: back) ∨
      (l.kind = .javadoc ∨ l.kind = .javadocTag) ∨
      front = [] ∧ l = ⟨kind, c :: cs.take n⟩ ∧ back = lexemes (cs.drop n) := by
  rw [lexemes_cons, hconstruct] at h
  rcases append_eq_append_cons h with ⟨rest, hfirst, rfl⟩ | ⟨later, hfront, hlater⟩
  · rcases splitJavadoc_eq_append hfirst with hcomment | ⟨hfront, hl, rfl⟩
    · exact .inr (.inl hcomment)
    · exact .inr (.inr ⟨hfront, hl, rfl⟩)
  · exact .inl ⟨later, hfront, hlater⟩

/-- Every lexeme means what its kind says, in the source that it is a part of. -/
theorem lexemes_mean {front back : List Lexeme} {l : Lexeme} {t : Text}
    (hborders : Borders before t) (h : lexemes t = front ++ l :: back) :
    Means l.kind (before ++ source front) l.text (source back) := by
  fun_induction constructs t generalizing before front with
  | case1 => simp [lexemes, constructs] at h
  | case2 c cs kind n hconstruct ih =>
      have hsound := sound_construct hborders
      rw [hconstruct] at hsound
      rcases lexemes_cons_eq_append hconstruct h with
        ⟨later, rfl, hlater⟩ | (hkind | hkind) | ⟨rfl, rfl, rfl⟩
      · have hnext : Borders (before ++ c :: cs.take n) (cs.drop n) :=
          hsound.2.append (List.cons_ne_nil c _) before
        have hsource : source (splitJavadoc ⟨kind, c :: cs.take n⟩) = c :: cs.take n :=
          source_splitJavadoc _
        rw [source_append, hsource, ← List.append_assoc]
        exact ih hnext hlater
      · rw [hkind]
        trivial
      · rw [hkind]
        trivial
      · rw [source_nil, List.append_nil, source_lexemes]
        exact hsound.1

end Java

end SourceMarkup
