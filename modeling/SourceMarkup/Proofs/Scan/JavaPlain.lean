import SourceMarkup.Proofs.Lexeme.JavaPlain
import SourceMarkup.Proofs.Scan.JavaMeaning
import SourceMarkup.Proofs.Scan.Language

/-!
# What the covers of Java leave out

The plain parts of a cover are the gaps between its tokens. Nothing is missed in them:
what is plain by its characters is plain by its bytes, since a plain part is told by ASCII
characters and all bytes of other characters may stand in a word.
-/

namespace SourceMarkup

open Text Lexeme

namespace Java

variable {before text after : Text} {c : Char} {cs : Text}

theorem tells_opensWith (c : Char) : TellsAsciiOnly (opensWith c) := by
  intro d e hd he
  have hslash : (d == '/') = (e == '/') :=
    (beq_false_of_ne (ne_of_beyond hd (by decide))).trans
      (beq_false_of_ne (ne_of_beyond he (by decide))).symm
  have hstar : (d == '*') = (e == '*') :=
    (beq_false_of_ne (ne_of_beyond hd (by decide))).trans
      (beq_false_of_ne (ne_of_beyond he (by decide))).symm
  rw [opensWith, opensWith, hslash, hstar, tells_isIdentifierStart d e hd he,
    tells_isAsciiDigit d e hd he]

theorem opensWith_of_beyond (hc : isBeyondAscii c) (d : Char) : opensWith c d = false := by
  refine opensWith_of_isIdentifierPart ?_ d
  simp [isIdentifierPart, isIdentifierStart, hc]

/-- A reserved word is read nowhere but where it stands. -/
theorem exists_of_byteChars_eq_word {word front back : Text} (hword : word ∈ keywords)
    (h : byteChars text = front ++ (word ++ back)) :
    ∃ u v, text = u ++ (word ++ v) ∧ byteChars u = front ∧ byteChars v = back := by
  have hall : ∀ word ∈ keywords, word.isAscii = true := by decide
  obtain ⟨d, ds, rfl⟩ := List.exists_cons_of_ne_nil (ne_nil_of_mem_keywords hword)
  have hascii : isAscii (d :: ds) = true := hall _ hword
  obtain ⟨hd, hds⟩ := isAscii_cons_iff.1 hascii
  obtain ⟨u, w, rfl, hu, hw⟩ := exists_of_byteChars_eq hd h
  obtain ⟨v, rfl⟩ : ds <+: w := (prefix_byteChars_iff hds w).1 ⟨back, hw.symm⟩
  rw [byteChars_append, byteChars_of_isAscii hds] at hw
  exact ⟨u, v, rfl, hu, List.append_cancel_left hw⟩

/-- What is plain by its characters is plain by its bytes. -/
theorem Plain.bytes (h : Plain text after) : Plain (byteChars text) (byteChars after) where
  quotes :=
    ⟨fun hmem => h.quotes.1 (mem_of_mem_byteChars (by decide) hmem),
      fun hmem => h.quotes.2 (mem_of_mem_byteChars (by decide) hmem)⟩
  pairs := by
    intro front c back hsplit
    cases hc : isBeyondAscii c with
    | true => exact any_eq_false_of_forall (opensWith_of_beyond hc)
    | false =>
        obtain ⟨u, v, rfl, rfl, rfl⟩ := exists_of_byteChars_eq hc hsplit
        rw [← byteChars_append, (tells_opensWith c).head?_any]
        exact h.pairs u c v rfl
  digits := by
    intro front c back hsplit hdigit
    have hc : isBeyondAscii c = false := by
      rw [Bool.eq_false_iff]
      intro hbeyond
      rw [isAsciiDigit_of_beyond hbeyond] at hdigit
      contradiction
    obtain ⟨u, v, rfl, rfl, rfl⟩ := exists_of_byteChars_eq hc hsplit
    obtain ⟨rest, word, rfl, hstart, hparts⟩ := h.digits u c v rfl hdigit
    refine ⟨byteChars rest, byteChars word, byteChars_append rest word, ?_,
      tells_isIdentifierPart.forall_mem hparts⟩
    rw [tells_isIdentifierStart.head?_any, hstart]
  words := by
    intro front word back hsplit hfront hback hword
    obtain ⟨u, v, rfl, rfl, rfl⟩ := exists_of_byteChars_eq_word hword hsplit
    rw [tells_isIdentifierPart.getLast?_any] at hfront
    rw [tells_isIdentifierPart.head?_any] at hback
    exact h.words u word v rfl hfront hback hword
  ending := by
    rw [tells_isIdentifierPart.getLast?_any, tells_isIdentifierPart.head?_any]
    exact h.ending

theorem cover_eq_spansFrom (source : Text) :
    Language.java.cover source = spansFrom 0 (merge (lexemes source)) :=
  Language.cover_eq .java source

/-- Nothing is missed: every gap between the tokens of a source is plain, byte by byte,
where it lies between the bytes before it and the bytes after it. -/
theorem plain_of_mem_cover (source : Text) :
    ∀ token ∈ Language.java.cover source, token.kind = .plain →
      ∃ before text after, byteChars source = before ++ (text ++ after) ∧
        before.length = token.start ∧ (before ++ text).length = token.stop ∧
        Plain text after := by
  intro token htoken hkind
  rw [cover_eq_spansFrom] at htoken
  obtain ⟨front, l, back, hsplit, rfl⟩ := exists_split_of_mem_spansFrom htoken
  have hsource : Lexeme.source (merge (lexemes source)) = source := by
    rw [source_merge, source_lexemes]
  have hplain : IfPlain Plain l (Lexeme.source back ++ []) := by
    have heach := each_plain_merge source
    rw [hsplit] at heach
    exact heach.of_append_cons
  rw [List.append_nil] at hplain
  refine ⟨byteChars (Lexeme.source front), byteChars l.text, byteChars (Lexeme.source back),
    ?_, ?_, ?_, (hplain hkind).bytes⟩
  · rw [← byteChars_append, ← byteChars_append, ← hsource]
    exact congrArg byteChars ((congrArg Lexeme.source hsplit).trans (source_append front _))
  · rw [length_byteChars, Nat.zero_add]
  · rw [← byteChars_append, length_byteChars, byteLength_append, Nat.zero_add]

/-- The digit of a word and the slash of a division are in a gap, the divisor is not. -/
theorem plain_of_mem_cover_division :
    ⟨.plain, 0, 3⟩ ∈ Language.java.cover ['x', '1', '/', '2'] ∧
      Plain ['x', '1', '/'] ['2'] := by
  have hword : construct 'x' ['1', '/', '2'] = (.plain, 1) := by decide
  have hslash : construct '/' ['2'] = (.plain, 0) := by decide
  have hnumber : construct '2' [] = (.number, 0) := by decide
  have hlexemes : lexemes ['x', '1', '/', '2'] =
      [⟨.plain, ['x', '1']⟩, ⟨.plain, ['/']⟩, ⟨.number, ['2']⟩] := by
    have hnil : lexemes [] = [] := by simp [lexemes, constructs]
    rw [lexemes_cons, hword, splitJavadoc_of_ne (by decide)]
    simp only [List.drop_succ_cons, List.drop_zero]
    rw [lexemes_cons, hslash, splitJavadoc_of_ne (by decide)]
    simp only [List.drop_zero]
    rw [lexemes_cons, hnumber, splitJavadoc_of_ne (by decide)]
    simp only [List.drop_zero, hnil]
    rfl
  have htoken : ⟨.plain, 0, 3⟩ ∈ Language.java.cover ['x', '1', '/', '2'] := by
    rw [cover_eq_spansFrom, hlexemes]
    exact List.mem_cons_self
  obtain ⟨before, text, after, hsplit, hstart, hstop, hplain⟩ :=
    plain_of_mem_cover _ _ htoken rfl
  obtain rfl : before = [] := List.eq_nil_of_length_eq_zero hstart
  rw [byteChars_of_isAscii (by decide), List.nil_append] at hsplit
  have hsplit : ['x', '1', '/'] ++ ['2'] = text ++ after := hsplit
  have hlength : ['x', '1', '/'].length = text.length := hstop.symm
  obtain ⟨rfl, rfl⟩ := List.append_inj hsplit hlength
  exact ⟨htoken, hplain⟩

end Java

end SourceMarkup
