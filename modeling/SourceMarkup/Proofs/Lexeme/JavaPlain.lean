import SourceMarkup.Proofs.Lexeme.JavaMeaning
import SourceMarkup.Proofs.Lexeme.Merge

/-!
# What plain parts of Java leave out

A part of a source is plain because nothing in it starts a construct. `Plain` says so
without counting: no quote stands in it, no two characters that open a comment, an
annotation or a number, no digit outside a word, and no reserved word. The second of two
characters may be the first one after the part, so nothing is missed where a plain part
meets a token.

A plain part of a cover joins several constructs. Two neighbours are plain together if
each of them is, as a word is never followed by a character that goes on with it.
-/

namespace SourceMarkup

namespace Java

open Lexeme

variable {s text after : Text} {c : Char} {cs : Text}

/-- Whether two characters in a row open a construct: a comment, an annotation or a
number. -/
def opensWith (c d : Char) : Bool :=
  (c == '/' && (d == '/' || d == '*')) || (c == '@' && isIdentifierStart d) ||
    (c == '.' && Text.isAsciiDigit d)

/-- A part of a source that holds nothing of which a token is made, where `after` is what
follows it. A word is told by what stands next to it in the part, so a reserved word is
found also where the part begins or ends with it. -/
structure Plain (text after : Text) : Prop where
  quotes : '"' ∉ text ∧ '\'' ∉ text
  pairs : ∀ front c back, text = front ++ c :: back →
    (back ++ after).head?.any (opensWith c) = false
  digits : ∀ front c back, text = front ++ c :: back → Text.isAsciiDigit c = true →
    ∃ rest word, front = rest ++ word ∧ word.head?.any isIdentifierStart = true ∧
      ∀ d ∈ word, isIdentifierPart d = true
  words : ∀ front word back, text = front ++ (word ++ back) →
    front.getLast?.any isIdentifierPart = false →
    back.head?.any isIdentifierPart = false → word ∉ keywords
  ending : text.getLast?.any isIdentifierPart = true →
    after.head?.any isIdentifierPart = false

/-! ### Single constructs -/

theorem isIdentifierPart_of_isIdentifierStart (h : isIdentifierStart c = true) :
    isIdentifierPart c = true := by
  rw [isIdentifierPart, h, Bool.true_or]

theorem opensWith_iff {d : Char} : opensWith c d = true ↔
    c = '/' ∧ (d = '/' ∨ d = '*') ∨ c = '@' ∧ isIdentifierStart d = true ∨
      c = '.' ∧ Text.isAsciiDigit d = true := by
  simp [opensWith, or_assoc]

theorem opensWith_of_isIdentifierPart (h : isIdentifierPart c = true) (d : Char) :
    opensWith c d = false := by
  have hslash : c ≠ '/' := by rintro rfl; exact absurd h (by decide)
  have hat : c ≠ '@' := by rintro rfl; exact absurd h (by decide)
  have hdot : c ≠ '.' := by rintro rfl; exact absurd h (by decide)
  simp [opensWith, hslash, hat, hdot]

theorem ne_nil_of_mem_keywords (h : text ∈ keywords) : text ≠ [] := by
  rintro rfl
  exact absurd h (by decide)

theorem isIdentifierPart_of_mem_keyword (h : text ∈ keywords) :
    ∀ c ∈ text, isIdentifierPart c = true := by
  have hall : ∀ word ∈ keywords, word.all isIdentifierPart = true := by decide
  exact List.all_eq_true.1 (hall text h)

theorem any_eq_false_of_forall {p : Char → Bool} {o : Option Char}
    (h : ∀ d, p d = false) : o.any p = false := by
  cases o with
  | none => rfl
  | some d => exact h d

/-- A character that stands for itself is plain where it opens nothing with the next
one. -/
theorem plain_single (hquotes : c ≠ '"' ∧ c ≠ '\'') (hopens : cs.head?.any (opensWith c) = false)
    (hpart : isIdentifierPart c = false) : Plain [c] cs where
  quotes := by
    rw [List.mem_singleton, List.mem_singleton]
    exact ⟨hquotes.1.symm, hquotes.2.symm⟩
  pairs := by
    intro front d back hsplit
    obtain ⟨rfl, hd⟩ | ⟨-, hd⟩ := List.append_eq_singleton_iff.1 hsplit.symm
    · obtain ⟨rfl, rfl⟩ := List.cons.inj hd
      exact hopens
    · cases hd
  digits := by
    intro front d back hsplit hd
    have hmem : d ∈ [c] := hsplit ▸ List.mem_append_cons_self
    rw [List.mem_singleton.1 hmem] at hd
    rw [isIdentifierPart, hd, Bool.or_true] at hpart
    contradiction
  words := by
    intro front word back hsplit _ _ hword
    obtain ⟨d, ds, rfl⟩ := List.exists_cons_of_ne_nil (ne_nil_of_mem_keywords hword)
    have hmem : d ∈ [c] :=
      hsplit ▸ List.mem_append_right front (List.mem_append_left back List.mem_cons_self)
    have hd := isIdentifierPart_of_isAsciiLetter (isAsciiLetter_of_mem_keywords hword)
    rw [List.mem_singleton.1 hmem, hpart] at hd
    contradiction
  ending := by
    intro hlast
    have hc : isIdentifierPart c = true := hlast
    rw [hpart] at hc
    contradiction

theorem eq_nil_of_getLast?_any {p : Char → Bool} {t : Text} (hall : ∀ d ∈ t, p d = true)
    (hlast : t.getLast?.any p = false) : t = [] := by
  rcases List.eq_nil_or_concat t with rfl | ⟨front, d, rfl⟩
  · rfl
  · have hd : p d = true := hall d (by simp)
    rw [List.concat_eq_append, List.getLast?_concat, Option.any_some, hd] at hlast
    contradiction

theorem eq_nil_of_head?_any {p : Char → Bool} {t : Text} (hall : ∀ d ∈ t, p d = true)
    (hhead : t.head?.any p = false) : t = [] := by
  cases t with
  | nil => rfl
  | cons d ds =>
      have hd : p d = true := hall d List.mem_cons_self
      rw [List.head?_cons, Option.any_some, hd] at hhead
      contradiction

/-- A word that is not reserved is plain as a whole. -/
theorem plain_word (hc : isIdentifierStart c = true)
    (hword : c :: cs.takeWhile isIdentifierPart ∉ keywords) :
    Plain (c :: cs.takeWhile isIdentifierPart) (cs.dropWhile isIdentifierPart) := by
  have hall : ∀ d ∈ c :: cs.takeWhile isIdentifierPart, isIdentifierPart d = true :=
    List.forall_mem_cons.2 ⟨isIdentifierPart_of_isIdentifierStart hc,
      fun _ => List.mem_takeWhile_imp⟩
  refine ⟨⟨?_, ?_⟩, ?_, ?_, ?_, fun _ => head?_any_dropWhile isIdentifierPart cs⟩
  · exact fun h => absurd (hall _ h) (by decide)
  · exact fun h => absurd (hall _ h) (by decide)
  · intro front d back hsplit
    have hd := hall d (hsplit ▸ List.mem_append_cons_self)
    exact any_eq_false_of_forall (opensWith_of_isIdentifierPart hd)
  · intro front d back hsplit hd
    -- The word begins with `c`, which is no digit, so something stands before `d`.
    refine ⟨[], front, rfl, ?_, fun e he => hall e (hsplit ▸ List.mem_append_left _ he)⟩
    cases front with
    | nil =>
        rw [← (List.cons.inj hsplit).1, isAsciiDigit_of_isIdentifierStart hc] at hd
        contradiction
    | cons e es => rwa [← (List.cons.inj hsplit).1]
  · intro front word back hsplit hfront hback
    have hfront : front = [] :=
      eq_nil_of_getLast?_any (fun e he => hall e (hsplit ▸ List.mem_append_left _ he)) hfront
    have hback : back = [] := by
      refine eq_nil_of_head?_any (fun e he => hall e (hsplit ▸ ?_)) hback
      exact List.mem_append_right front (List.mem_append_right word he)
    rw [hfront, hback, List.nil_append, List.append_nil] at hsplit
    rwa [← hsplit]

theorem plain_slash {n : Nat} (h : construct '/' cs = (.plain, n)) :
    Plain ('/' :: cs.take n) (cs.drop n) := by
  unfold construct at h
  rw [if_pos rfl] at h
  split at h
  · cases h
  · next ds =>
      have hkind : (if isJavadocBody ds then TokenKind.javadoc else .blockComment) = .plain :=
        congrArg Prod.fst h
      split at hkind <;> contradiction
  · next hline hblock =>
      obtain rfl : 0 = n := congrArg Prod.snd h
      refine plain_single (by decide) ?_ (by decide)
      cases cs with
      | nil => rfl
      | cons d ds =>
          have hd : d ≠ '/' ∧ d ≠ '*' :=
            ⟨by rintro rfl; exact hline ds rfl, by rintro rfl; exact hblock ds rfl⟩
          simp [opensWith, hd]

/-- A construct that makes no token is plain. -/
theorem plain_construct {n : Nat} (h : construct c cs = (.plain, n)) :
    Plain (c :: cs.take n) (cs.drop n) := by
  by_cases hslash : c = '/'
  · subst hslash
    exact plain_slash h
  unfold construct at h
  rw [if_neg hslash] at h
  split at h
  · split at h <;> cases h
  next hquote =>
  split at h
  · cases h
  next hapostrophe =>
  split at h
  · cases h
  next hdigit =>
  split at h
  · cases h
  next hdot =>
  split at h
  · have hkind := congrArg Prod.fst h
    dsimp only at hkind
    split at hkind <;> contradiction
  next hat =>
  split at h
  · next hstart =>
      obtain ⟨hkind, rfl⟩ := Prod.mk.inj h
      have htake : cs.take (cs.takeWhile isIdentifierPart).length =
          cs.takeWhile isIdentifierPart := take_runLength isIdentifierPart cs
      have hdrop : cs.drop (cs.takeWhile isIdentifierPart).length =
          cs.dropWhile isIdentifierPart := drop_runLength isIdentifierPart cs
      rw [htake, hdrop]
      refine plain_word hstart fun hword => ?_
      rw [if_pos (List.contains_iff_mem.2 hword)] at hkind
      contradiction
  · next hstart =>
      obtain rfl : 0 = n := congrArg Prod.snd h
      refine plain_single ⟨hquote, hapostrophe⟩ ?_ (by simp [isIdentifierPart, hstart, hdigit])
      cases cs with
      | nil => rfl
      | cons d ds =>
          have hdot : ¬ (c = '.' ∧ Text.isAsciiDigit d = true) := by simpa using hdot
          have hat : ¬ (c = '@' ∧ isIdentifierStart d = true) := by simpa using hat
          rw [List.drop_zero, List.head?_cons, Option.any_some, Bool.eq_false_iff]
          intro hopens
          rcases opensWith_iff.1 hopens with ⟨hc, -⟩ | hc | hc
          · exact hslash hc
          · exact hat hc
          · exact hdot hc

/-! ### Neighbours -/

theorem head?_any_of_append {p : Char → Bool} {t u : Text}
    (h : (t ++ u).head?.any p = false) : t.head?.any p = false := by
  cases t with
  | nil => rfl
  | cons d ds => exact h

theorem getLast?_any_of_append {p : Char → Bool} {t u : Text}
    (h : (t ++ u).getLast?.any p = false) : u.getLast?.any p = false := by
  cases u with
  | nil => rfl
  | cons d ds => rwa [List.getLast?_append_of_ne_nil t (List.cons_ne_nil d ds)] at h

/-- Neighbours that are plain make up a plain part. A reserved word in it lies in one of
them, since a word at the end of the first is not continued by the second. -/
theorem Plain.append (hs : Plain s (text ++ after)) (ht : Plain text after) :
    Plain (s ++ text) after where
  quotes := by
    rw [List.mem_append, List.mem_append, not_or, not_or]
    exact ⟨⟨hs.quotes.1, ht.quotes.1⟩, hs.quotes.2, ht.quotes.2⟩
  pairs := by
    intro front d back hsplit
    rcases append_eq_append_cons hsplit with ⟨rest, hfirst, rfl⟩ | ⟨rest, -, hsecond⟩
    · rw [List.append_assoc]
      exact hs.pairs front d rest hfirst
    · exact ht.pairs rest d back hsecond
  digits := by
    intro front d back hsplit hd
    rcases append_eq_append_cons hsplit with ⟨rest, hfirst, -⟩ | ⟨rest, rfl, hsecond⟩
    · exact hs.digits front d rest hfirst hd
    · obtain ⟨first, word, rfl, hword⟩ := ht.digits rest d back hsecond hd
      exact ⟨s ++ first, word, (List.append_assoc s first word).symm, hword⟩
  words := by
    intro front word back hsplit hfront hback hword
    rcases List.append_eq_append_iff.1 hsplit with ⟨rest, rfl, hrest⟩ | ⟨start, hstart, hsplit⟩
    · exact ht.words rest word back hrest (getLast?_any_of_append hfront) hback hword
    rcases List.append_eq_append_iff.1 hsplit with ⟨rest, rfl, rfl⟩ | ⟨rest, rfl, hrest⟩
    · exact hs.words front word rest hstart hfront (head?_any_of_append hback) hword
    have hparts := isIdentifierPart_of_mem_keyword hword
    by_cases hempty : start = []
    · subst hempty
      exact ht.words [] rest back hrest rfl hback hword
    -- The word begins in the first neighbour and has to end there.
    have hlast : s.getLast?.any isIdentifierPart = true := by
      rw [hstart, List.getLast?_append_of_ne_nil front hempty,
        List.getLast?_eq_some_getLast hempty, Option.any_some]
      exact hparts _ (List.mem_append_left rest (List.getLast_mem hempty))
    have hnext := head?_any_of_append (hs.ending hlast)
    rw [hrest] at hnext
    obtain rfl : rest = [] :=
      eq_nil_of_head?_any (fun e he => hparts e (List.mem_append_right start he))
        (head?_any_of_append hnext)
    exact hs.words front (start ++ []) [] (by rw [hstart, List.append_nil, List.append_nil])
      hfront rfl hword
  ending := by
    intro hlast
    cases text with
    | nil =>
        rw [List.append_nil] at hlast
        exact hs.ending hlast
    | cons d ds =>
        rw [List.getLast?_append_of_ne_nil s (List.cons_ne_nil d ds)] at hlast
        exact ht.ending hlast

/-! ### Sources -/

theorem each_plain_splitJavadoc {l : Lexeme} (h : IfPlain Plain l after) :
    Each Lexeme.text (IfPlain Plain) after (splitJavadoc l) := by
  by_cases hkind : l.kind = .javadoc
  · refine each_of_forall fun m hm rest hplain => ?_
    rcases kind_of_mem_splitJavadoc hm hkind with hm | hm <;> rw [hm] at hplain <;> contradiction
  · rw [splitJavadoc, if_neg hkind]
    exact ⟨h, trivial⟩

/-- Every plain lexeme of a source is plain between its neighbours. -/
theorem each_plain_lexemes (t : Text) :
    Each Lexeme.text (IfPlain Plain) [] (lexemes t) := by
  fun_induction constructs t with
  | case1 =>
      rw [lexemes, constructs]
      trivial
  | case2 c cs kind n hconstruct ih =>
      rw [lexemes_cons, hconstruct, each_append, ← source, source_lexemes, List.append_nil]
      refine ⟨each_plain_splitJavadoc fun hkind => ?_, ih⟩
      obtain rfl : kind = .plain := hkind
      exact plain_construct hconstruct

/-- Every plain part of the cover of a source is plain between its neighbours. -/
theorem each_plain_merge (t : Text) :
    Each Lexeme.text (IfPlain Plain) [] (merge (lexemes t)) :=
  each_merge Plain.append (each_plain_lexemes t)

end Java

end SourceMarkup
