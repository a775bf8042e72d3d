import SourceMarkup.Lexeme.Java
import SourceMarkup.Proofs.Lexeme.Basic

/-!
# Lexemes of Java make up the source

Nothing of a source is lost or doubled in its lexemes, and none of them is empty. What a
construct can be is told here once, case by case, for all that is shown of its kinds.
-/

namespace SourceMarkup

namespace Java

open Lexeme

/-! ### Numbers -/

theorem isNumberPart_of_isAsciiDigit {c : Char} (h : Text.isAsciiDigit c) :
    isNumberPart c = true := by
  simp [isNumberPart, Text.isAsciiAlnum, h]

theorem startsWithSign_cons (c : Char) (cs : Text) :
    startsWithSign (c :: cs) = (c == '+' || c == '-') := by
  unfold startsWithSign
  split <;> simp_all

/-- A number has a base prefix, or none. -/
theorem base_cases (c : Char) (cs : Text) :
    (c = '0' ∧ ∃ x ds, (x = 'x' ∨ x = 'X') ∧ cs = x :: ds) ∨
      ¬ (c = '0' ∧ (cs.head? = some 'x' ∨ cs.head? = some 'X')) := by
  by_cases h : c = '0' ∧ (cs.head? = some 'x' ∨ cs.head? = some 'X')
  · obtain ⟨hzero, hx | hx⟩ := h
    · obtain ⟨ds, hds⟩ := List.head?_eq_some_iff.1 hx
      exact .inl ⟨hzero, 'x', ds, .inl rfl, hds⟩
    · obtain ⟨ds, hds⟩ := List.head?_eq_some_iff.1 hx
      exact .inl ⟨hzero, 'X', ds, .inr rfl, hds⟩
  · exact .inr h

theorem numberTailLength_hex {x : Char} (hx : x = 'x' ∨ x = 'X') (ds : Text) :
    numberTailLength '0' (x :: ds) = numberLength isHexExponent ds + 1 := by
  rcases hx with rfl | rfl <;> rfl

theorem numberTailLength_decimal {c : Char} {cs : Text}
    (h : ¬ (c = '0' ∧ (cs.head? = some 'x' ∨ cs.head? = some 'X'))) :
    numberTailLength c cs = numberLength isDecimalExponent cs := by
  unfold numberTailLength
  split
  · exact if_neg fun hzero => h ⟨hzero, .inl rfl⟩
  · exact if_neg fun hzero => h ⟨hzero, .inr rfl⟩
  · rfl

/-! ### Constructs -/

theorem isAsciiDigit_of_isIdentifierStart {c : Char} (hc : isIdentifierStart c) :
    Text.isAsciiDigit c = false := by
  rw [Bool.eq_false_iff]
  intro hdigit
  have hdigit : 48 ≤ c.toNat ∧ c.toNat ≤ 57 := by
    simpa [Text.isAsciiDigit, Char.le_def, UInt32.le_iff_toNat_le] using hdigit
  have hc : (((97 ≤ c.toNat ∧ c.toNat ≤ 122 ∨ 65 ≤ c.toNat ∧ c.toNat ≤ 90) ∨ c = '_') ∨
      c = '$') ∨ 128 ≤ c.toNat := by
    simpa [isIdentifierStart, Text.isAsciiLetter, Text.isBeyondAscii, Char.le_def,
      UInt32.le_iff_toNat_le] using hc
  rcases hc with (((hlower | hupper) | rfl) | rfl) | hbeyond
  · omega
  · omega
  · exact absurd hdigit.2 (by decide)
  · exact absurd hdigit.1 (by decide)
  · omega

theorem isJavadocBody_eq (t : Text) :
    isJavadocBody t = (['*'].isPrefixOf t && !(['*', '/'].isPrefixOf t)) := by
  unfold isJavadocBody
  split
  · rfl
  · next d ds =>
      rw [bne, Bool.beq_comm]
      simp [List.isPrefixOf_cons_cons]
  · next hstar hmore =>
      match t with
      | [] => rfl
      | d :: ds =>
          have hne : d ≠ '*' := by
            rintro rfl
            cases ds with
            | nil => exact hstar rfl
            | cons e es => exact hmore e es rfl
          simp [Ne.symm hne]

section Construct

variable {c : Char} {cs : Text} {n : Nat}

theorem construct_line (cs : Text) :
    construct '/' ('/' :: cs) = (.lineComment, runLength (· != '\n') ('/' :: cs)) := rfl

theorem construct_comment (cs : Text) :
    construct '/' ('*' :: cs) =
      (if isJavadocBody cs then .javadoc else .blockComment, throughLength ['*', '/'] cs + 1) :=
  rfl

theorem construct_slash {d : Char} (hline : d ≠ '/') (hcomment : d ≠ '*') (cs : Text) :
    construct '/' (d :: cs) = (.plain, 0) := by
  unfold construct
  simp [hline, hcomment]

theorem construct_textBlock (cs : Text) :
    construct '"' ('"' :: '"' :: cs) = (.stringLiteral, textBlockLength cs + 2) := rfl

theorem construct_string (h : ¬ ['"', '"'] <+: cs) :
    construct '"' cs = (.stringLiteral, quotedLength '"' cs) := by
  unfold construct
  rw [if_neg (by decide), if_pos rfl]
  split
  · exact absurd ⟨_, rfl⟩ h
  · rfl

/-- The kinds of the constructs that make one token each. -/
def singleKinds : List TokenKind :=
  [.lineComment, .blockComment, .stringLiteral, .charLiteral, .number, .keyword,
    .annotationName]

/-- A construct makes no token, or it is a javadoc comment, or it makes one token. -/
theorem construct_cases {kind : TokenKind} (h : construct c cs = (kind, n)) :
    (kind = .plain ∧
        (n = 0 ∨ isIdentifierStart c = true ∧ n = (cs.takeWhile isIdentifierPart).length)) ∨
      (kind = .javadoc ∧ ∃ ds, c = '/' ∧ cs = '*' :: ds ∧ isJavadocBody ds = true ∧
        n = throughLength ['*', '/'] ds + 1) ∨
      kind ∈ singleKinds := by
  unfold construct at h
  split at h
  · next hslash =>
      split at h
      · cases h
        exact .inr (.inr (by decide))
      · next ds =>
          obtain ⟨hkind, hn⟩ := Prod.mk.inj h
          split at hkind
          · next hbody => exact .inr (.inl ⟨hkind.symm, ds, hslash, rfl, hbody, hn.symm⟩)
          · exact .inr (.inr (hkind ▸ by decide))
      · cases h
        exact .inl ⟨rfl, .inl rfl⟩
  split at h
  · split at h <;> (cases h; exact .inr (.inr (by decide)))
  split at h
  · cases h
    exact .inr (.inr (by decide))
  split at h
  · cases h
    exact .inr (.inr (by decide))
  split at h
  · cases h
    exact .inr (.inr (by decide))
  split at h
  · cases h
    refine .inr (.inr ?_)
    split <;> decide
  split at h
  · next hstart =>
      obtain ⟨hkind, hn⟩ := Prod.mk.inj h
      split at hkind
      · exact .inr (.inr (hkind ▸ by decide))
      · exact .inl ⟨hkind.symm, .inr ⟨hstart, hn.symm⟩⟩
  · cases h
    exact .inl ⟨rfl, .inl rfl⟩

/-- A construct that makes no token is a single character or a word. -/
theorem plain_cases (h : construct c cs = (.plain, n)) :
    n = 0 ∨ isIdentifierStart c = true ∧ n = (cs.takeWhile isIdentifierPart).length := by
  rcases construct_cases h with ⟨-, hplain⟩ | ⟨hkind, -⟩ | hkind
  · exact hplain
  · cases hkind
  · exact absurd hkind (by decide)

/-- A javadoc comment is a comment with the body of one. -/
theorem javadoc_cases (h : construct c cs = (.javadoc, n)) :
    ∃ ds, c = '/' ∧ cs = '*' :: ds ∧ isJavadocBody ds = true ∧
      n = throughLength ['*', '/'] ds + 1 := by
  rcases construct_cases h with ⟨hkind, -⟩ | ⟨-, hcomment⟩ | hkind
  · cases hkind
  · exact hcomment
  · exact absurd hkind (by decide)

/-- A tag is no construct of its own. -/
theorem construct_ne_javadocTag (c : Char) (cs : Text) (n : Nat) :
    construct c cs ≠ (.javadocTag, n) := by
  intro h
  rcases construct_cases h with ⟨hkind, -⟩ | ⟨hkind, -⟩ | hkind
  · cases hkind
  · cases hkind
  · exact absurd hkind (by decide)

end Construct

/-! ### Splitting at tags -/

theorem splitJavadoc_of_ne {kind : TokenKind} (h : kind ≠ .javadoc) (t : Text) :
    splitJavadoc ⟨kind, t⟩ = [⟨kind, t⟩] :=
  if_neg h

@[simp] theorem source_javadocPart (t : Text) : source (javadocPart t) = t := by
  cases t <;> simp [javadocPart]

theorem solid_javadocPart (t : Text) : Solid (javadocPart t) := by
  cases t <;> simp [javadocPart, Solid]

theorem source_splitTags (previous : Char) (t : Text) :
    (splitTags previous t).1 ++ source (splitTags previous t).2 = t := by
  fun_induction splitTags previous t with
  | case1 => rfl
  | case2 previous c cs htag n part rest hsplit ih =>
      rw [hsplit] at ih
      simp [ih]
  | case3 previous c cs htag part rest hsplit ih =>
      rw [hsplit] at ih
      simp [ih]

theorem solid_splitTags (previous : Char) (t : Text) :
    Solid (splitTags previous t).2 := by
  fun_induction splitTags previous t with
  | case1 => exact fun _ h => absurd h List.not_mem_nil
  | case2 previous c cs htag n part rest hsplit ih =>
      rw [hsplit] at ih
      intro l hl
      rcases List.mem_cons.1 hl with rfl | hl
      · exact List.cons_ne_nil _ _
      · exact solid_append (solid_javadocPart part) ih l hl
  | case3 previous c cs htag part rest hsplit ih =>
      rw [hsplit] at ih
      exact ih

theorem source_splitJavadoc (l : Lexeme) : source (splitJavadoc l) = l.text := by
  unfold splitJavadoc
  split
  · rw [source_append, source_javadocPart, source_splitTags]
  · simp

theorem solid_splitJavadoc {l : Lexeme} (h : l.text ≠ []) : Solid (splitJavadoc l) := by
  unfold splitJavadoc
  split
  · exact solid_append (solid_javadocPart _) (solid_splitTags '/' l.text)
  · simpa [Solid] using h

/-! ### Sources -/

theorem lexemes_cons (c : Char) (cs : Text) :
    lexemes (c :: cs) =
      splitJavadoc ⟨(construct c cs).1, c :: cs.take (construct c cs).2⟩ ++
        lexemes (cs.drop (construct c cs).2) := by
  rw [lexemes, constructs, List.flatMap_cons, lexemes]

theorem lexemes_nil : lexemes [] = [] := by
  rw [lexemes, constructs, List.flatMap_nil]

/-- A construct that is no javadoc comment is one lexeme. -/
theorem lexemes_cons_of_ne {c : Char} {cs : Text} {kind : TokenKind} {n : Nat}
    (hconstruct : construct c cs = (kind, n)) (hkind : kind ≠ .javadoc) :
    lexemes (c :: cs) = ⟨kind, c :: cs.take n⟩ :: lexemes (cs.drop n) := by
  rw [lexemes_cons, hconstruct, splitJavadoc_of_ne hkind]
  rfl

theorem source_constructs (t : Text) : source (constructs t) = t := by
  fun_induction constructs t with
  | case1 => rfl
  | case2 c cs kind n hconstruct ih => simp [ih]

theorem source_flatMap_splitJavadoc (ls : List Lexeme) :
    source (ls.flatMap splitJavadoc) = source ls := by
  induction ls with
  | nil => rfl
  | cons l ls ih =>
      rw [List.flatMap_cons, source_append, source_splitJavadoc, ih, source_cons]

theorem source_lexemes (t : Text) : source (lexemes t) = t := by
  rw [lexemes, source_flatMap_splitJavadoc, source_constructs]

theorem solid_constructs (t : Text) : Solid (constructs t) := by
  fun_induction constructs t with
  | case1 => exact fun _ h => absurd h List.not_mem_nil
  | case2 c cs kind n hconstruct ih =>
      intro l hl
      rcases List.mem_cons.1 hl with rfl | hl
      · exact List.cons_ne_nil _ _
      · exact ih l hl

theorem solid_lexemes (t : Text) : Solid (lexemes t) := by
  intro l hl
  obtain ⟨m, hm, hlm⟩ := List.mem_flatMap.1 hl
  exact solid_splitJavadoc (solid_constructs t m hm) l hlm

end Java

end SourceMarkup
