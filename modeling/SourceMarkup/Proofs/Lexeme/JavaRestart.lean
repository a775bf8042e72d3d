import SourceMarkup.Proofs.Lexeme.JavaLines

/-!
# Where the lexemes of Java can start anew

A lexer looks ahead, but no further than it has to: where a construct leaves something of
a text, it is told by what it takes and by the beginning of what it leaves, and it is the
same whatever stands behind the text. Only a construct that reaches to the end of a text
may go on with what is added. A new line that is a lexeme of its own at the end of a line
takes part in none, so the line and what follows it are cut apart from each other.
-/

namespace SourceMarkup

namespace Java

open Lexeme

variable {c : Char} {cs t line : Text}

/-! ### Lengths that end inside a text -/

theorem takeWhile_append_of_lt {p : Char → Bool} (h : (t.takeWhile p).length < t.length)
    (rest : Text) : (t ++ rest).takeWhile p = t.takeWhile p := by
  rw [List.takeWhile_append, if_neg (Nat.ne_of_lt h)]

/-- What is added to a text that is long enough does not change what begins it. -/
theorem isPrefixOf_append {w : Text} (h : w.length ≤ t.length) (rest : Text) :
    w.isPrefixOf (t ++ rest) = w.isPrefixOf t := by
  rw [Bool.eq_iff_iff, List.isPrefixOf_iff_prefix, List.isPrefixOf_iff_prefix]
  exact ⟨fun hw => List.prefix_of_prefix_length_le hw (List.prefix_append t rest) h,
    fun hw => hw.trans (List.prefix_append t rest)⟩

theorem length_le_throughLength {w : Text} (h : throughLength w t < t.length) :
    w.length ≤ throughLength w t := by
  induction t with
  | nil => exact absurd h (Nat.not_lt_zero _)
  | cons c cs ih =>
      unfold throughLength at h ⊢
      split
      · exact Nat.le_refl _
      · next hstarts =>
          rw [if_neg hstarts, List.length_cons, Nat.succ_lt_succ_iff] at h
          exact Nat.le_succ_of_le (ih h)

theorem throughLength_append_of_lt {w : Text} (h : throughLength w t < t.length)
    (rest : Text) : throughLength w (t ++ rest) = throughLength w t := by
  induction t with
  | nil => exact absurd h (Nat.not_lt_zero _)
  | cons c cs ih =>
      have hle : w.length ≤ (c :: cs).length :=
        Nat.le_of_lt (Nat.lt_of_le_of_lt (length_le_throughLength h) h)
      have hstarts := isPrefixOf_append hle rest
      rw [List.cons_append] at hstarts ⊢
      unfold throughLength at h ⊢
      rw [hstarts]
      split
      · rfl
      · next hno =>
          rw [if_neg hno, List.length_cons, Nat.succ_lt_succ_iff] at h
          rw [ih h]

theorem quotedLength_append_of_lt {quote : Char} (h : quotedLength quote t < t.length)
    (rest : Text) : quotedLength quote (t ++ rest) = quotedLength quote t := by
  fun_induction quotedLength quote t with
  | case1 => exact absurd h (Nat.not_lt_zero _)
  | case2 => exact absurd h (Nat.lt_irrefl _)
  | case3 d ds ih =>
      have hds : quotedLength quote ds < ds.length := by
        simp only [List.length_cons] at h
        omega
      rw [List.cons_append, List.cons_append, quotedLength, if_pos rfl, ih hds]
  | case4 cs hslash =>
      rw [List.cons_append, quotedLength.eq_def]
      simp
  | case5 cs hslash hline =>
      rw [List.cons_append, quotedLength.eq_def]
      simp [hslash, hline]
  | case6 c cs hslash hline hquote ih =>
      rw [List.length_cons, Nat.succ_lt_succ_iff] at h
      rw [List.cons_append, quotedLength.eq_def]
      simp [hslash, hline, hquote, ih h]

theorem length_le_textBlockLength (h : textBlockLength t < t.length) :
    blockQuotes.length ≤ textBlockLength t := by
  fun_induction textBlockLength t with
  | case1 => exact absurd h (Nat.not_lt_zero _)
  | case2 => exact absurd h (Nat.lt_irrefl _)
  | case3 d ds ih =>
      have hds : textBlockLength ds < ds.length := by
        simp only [List.length_cons] at h
        omega
      exact Nat.le_add_right_of_le (ih hds)
  | case4 => exact Nat.le_refl _
  | case5 c cs hslash hquotes ih =>
      rw [List.length_cons, Nat.succ_lt_succ_iff] at h
      exact Nat.le_succ_of_le (ih h)

theorem textBlockLength_append_of_lt (h : textBlockLength t < t.length) (rest : Text) :
    textBlockLength (t ++ rest) = textBlockLength t := by
  have hle : blockQuotes.length ≤ t.length :=
    Nat.le_of_lt (Nat.lt_of_le_of_lt (length_le_textBlockLength h) h)
  fun_induction textBlockLength t with
  | case1 => exact absurd h (Nat.not_lt_zero _)
  | case2 => exact absurd h (Nat.lt_irrefl _)
  | case3 d ds ih =>
      have hds : textBlockLength ds < ds.length := by
        simp only [List.length_cons] at h
        omega
      have hquotes : blockQuotes.length ≤ ds.length :=
        Nat.le_of_lt (Nat.lt_of_le_of_lt (length_le_textBlockLength hds) hds)
      rw [List.cons_append, List.cons_append, textBlockLength, if_pos rfl, ih hds hquotes]
  | case4 c cs hslash hquotes =>
      rw [← isPrefixOf_append hle rest, List.cons_append] at hquotes
      rw [List.cons_append, textBlockLength.eq_def]
      simp [hslash, hquotes]
  | case5 c cs hslash hquotes ih =>
      rw [List.length_cons, Nat.succ_lt_succ_iff] at h
      rw [← isPrefixOf_append hle rest, List.cons_append] at hquotes
      have hquotesle : blockQuotes.length ≤ cs.length :=
        Nat.le_of_lt (Nat.lt_of_le_of_lt (length_le_textBlockLength h) h)
      rw [List.cons_append, textBlockLength.eq_def]
      simp [hslash, hquotes, ih h hquotesle]

theorem numberLength_append_of_lt {isExponent : Char → Bool}
    (hexponent : ∀ c, isExponent c = true → isNumberPart c = true)
    (h : numberLength isExponent t < t.length) (rest : Text) :
    numberLength isExponent (t ++ rest) = numberLength isExponent t := by
  fun_induction numberLength isExponent t with
  | case1 => exact absurd h (Nat.not_lt_zero _)
  | case2 c hsign => simp [startsWithSign] at hsign
  | case3 c d ds hsign ih =>
      have hds : numberLength isExponent ds < ds.length := by
        simp only [List.length_cons] at h
        omega
      rw [startsWithSign_cons] at hsign
      rw [List.cons_append, List.cons_append, numberLength.eq_def]
      simp [startsWithSign_cons, hsign, ih hds]
  | case4 c cs hsign hpart ih =>
      rw [List.length_cons, Nat.succ_lt_succ_iff] at h
      obtain ⟨d, ds, rfl⟩ := List.exists_cons_of_length_pos (Nat.zero_lt_of_lt h)
      have ih := ih h
      rw [List.cons_append] at ih
      rw [startsWithSign_cons] at hsign
      rw [List.cons_append, List.cons_append, numberLength.eq_def]
      simp [startsWithSign_cons, hsign, hpart, ih]
  | case5 c cs hsign hpart =>
      have hc : isExponent c = false := by
        rw [Bool.eq_false_iff]
        exact fun hc => hpart (hexponent c hc)
      rw [List.cons_append, numberLength.eq_def]
      simp [hc, hpart]

theorem numberTailLength_append_of_lt (h : numberTailLength c cs < cs.length) (rest : Text) :
    numberTailLength c (cs ++ rest) = numberTailLength c cs := by
  rcases base_cases c cs with ⟨rfl, x, ds, hx, rfl⟩ | hdecimal
  · rw [numberTailLength_hex hx, List.length_cons, Nat.succ_lt_succ_iff] at h
    rw [List.cons_append, numberTailLength_hex hx, numberTailLength_hex hx,
      numberLength_append_of_lt (fun _ => isNumberPart_of_isHexExponent) h]
  · have hhead : (cs ++ rest).head? = cs.head? := by
      obtain ⟨d, ds, rfl⟩ := List.exists_cons_of_length_pos (Nat.zero_lt_of_lt h)
      rfl
    rw [numberTailLength_decimal hdecimal] at h
    rw [numberTailLength_decimal (by rwa [hhead]), numberTailLength_decimal hdecimal,
      numberLength_append_of_lt (fun _ => isNumberPart_of_isDecimalExponent) h]

/-! ### Constructs -/

theorem isJavadocBody_append (h : throughLength ['*', '/'] cs < cs.length) (rest : Text) :
    isJavadocBody (cs ++ rest) = isJavadocBody cs := by
  have hle : ['*', '/'].length ≤ cs.length :=
    Nat.le_of_lt (Nat.lt_of_le_of_lt (length_le_throughLength h) h)
  have hstar : ['*'].length ≤ cs.length := Nat.le_of_succ_le hle
  rw [isJavadocBody_eq, isJavadocBody_eq, isPrefixOf_append hle, isPrefixOf_append hstar]

theorem construct_slash_append (h : (construct '/' cs).2 < cs.length) (rest : Text) :
    construct '/' (cs ++ rest) = construct '/' cs := by
  obtain ⟨d, ds, rfl⟩ := List.exists_cons_of_length_pos (Nat.zero_lt_of_lt h)
  by_cases hline : d = '/'
  · subst hline
    rw [List.cons_append, construct_line, construct_line, runLength, ← List.cons_append,
      takeWhile_append_of_lt h, runLength]
  by_cases hcomment : d = '*'
  · subst hcomment
    have hlt : throughLength ['*', '/'] ds < ds.length := Nat.succ_lt_succ_iff.1 h
    rw [List.cons_append, construct_comment, construct_comment, isJavadocBody_append hlt,
      throughLength_append_of_lt hlt]
  · rw [List.cons_append, construct_slash hline hcomment, construct_slash hline hcomment]

theorem construct_quote_append (h : (construct '"' cs).2 < cs.length) (rest : Text) :
    construct '"' (cs ++ rest) = construct '"' cs := by
  by_cases hquotes : ['"', '"'] <+: cs
  · obtain ⟨ds, rfl⟩ := hquotes
    have hlt : textBlockLength ds < ds.length := Nat.add_lt_add_iff_right.1 h
    have hblock := construct_textBlock (ds ++ rest)
    rw [textBlockLength_append_of_lt hlt, ← construct_textBlock] at hblock
    exact hblock
  · rw [construct_string hquotes] at h
    have hlong : ¬ ['"', '"'] <+: cs ++ rest := by
      intro hlong
      rcases cs with _ | ⟨d, _ | ⟨e, es⟩⟩
      · exact absurd h (Nat.not_lt_zero _)
      · -- A quote alone ends the literal, and nothing is left.
        obtain ⟨rfl, -⟩ := List.cons_prefix_cons.1 hlong
        exact absurd h (by decide)
      · refine hquotes (List.prefix_of_prefix_length_le hlong (List.prefix_append _ rest) ?_)
        exact Nat.le_add_left 2 es.length
    rw [construct_string hquotes, construct_string hlong, quotedLength_append_of_lt h]

/-- What a construct is does not depend on what stands behind a text that it leaves
something of. -/
theorem construct_append (h : (construct c cs).2 < cs.length) (rest : Text) :
    construct c (cs ++ rest) = construct c cs := by
  by_cases hslash : c = '/'
  · subst hslash
    exact construct_slash_append h rest
  by_cases hquote : c = '"'
  · subst hquote
    exact construct_quote_append h rest
  have hhead : (cs ++ rest).head? = cs.head? := by
    obtain ⟨d, ds, rfl⟩ := List.exists_cons_of_length_pos (Nat.zero_lt_of_lt h)
    rfl
  unfold construct at h ⊢
  rw [if_neg hslash, if_neg hquote] at h
  rw [if_neg hslash, if_neg hquote, if_neg hslash, if_neg hquote, hhead]
  split
  · next hc =>
      rw [if_pos hc] at h
      rw [quotedLength_append_of_lt h]
  next hc =>
  rw [if_neg hc] at h
  split
  · next hdigit =>
      rw [if_pos hdigit] at h
      rw [numberTailLength_append_of_lt h]
  next hdigit =>
  rw [if_neg hdigit] at h
  split
  · next hdot =>
      rw [if_pos hdot] at h
      rw [numberLength_append_of_lt (fun _ => isNumberPart_of_isDecimalExponent) h]
  next hdot =>
  rw [if_neg hdot] at h
  split
  · next hat =>
      rw [if_pos hat] at h
      rw [takeWhile_append_of_lt h]
  next hat =>
  rw [if_neg hat] at h
  split
  · next hstart =>
      rw [if_pos hstart] at h
      rw [takeWhile_append_of_lt h]
  · rfl

/-! ### Lexemes -/

/-- A plain lexeme that ends with a new line is no more than that. -/
theorem eq_newline_of_plain {front back : List Lexeme} {text : Text}
    (h : lexemes t = front ++ ⟨.plain, text⟩ :: back) (hline : text.getLast? = some '\n') :
    text = ['\n'] := by
  fun_induction constructs t generalizing front with
  | case1 => simp [lexemes, constructs] at h
  | case2 c cs kind n hconstruct ih =>
      rcases lexemes_cons_eq_append hconstruct h with
        ⟨later, -, hlater⟩ | (hkind | hkind) | ⟨-, hl, -⟩
      · exact ih hlater
      · cases hkind
      · cases hkind
      · obtain ⟨rfl, rfl⟩ := Lexeme.mk.inj hl
        rcases plain_cases hconstruct with rfl | ⟨hstart, rfl⟩
        · simpa using hline
        · have hmem : '\n' ∈ c :: cs.takeWhile isIdentifierPart := by
            rw [← take_runLength]
            exact List.mem_of_getLast? hline
          rcases List.mem_cons.1 hmem with rfl | hmem
          · exact absurd hstart (by decide)
          · exact absurd (List.mem_takeWhile_imp hmem) (by decide)

theorem lexemes_cons_append {c : Char} {cs : Text} (h : (construct c cs).2 < cs.length)
    (rest : Text) :
    lexemes (c :: cs ++ rest) =
      splitJavadoc ⟨(construct c cs).1, c :: cs.take (construct c cs).2⟩ ++
        lexemes (cs.drop (construct c cs).2 ++ rest) := by
  rw [List.cons_append, lexemes_cons, construct_append h,
    List.take_append_of_le_length (Nat.le_of_lt h),
    List.drop_append_of_le_length (Nat.le_of_lt h)]

/-- A line that ends with a new line for itself is cut apart from what follows it. The
induction is over the constructs of the line: all but the last leave something of it. -/
theorem lexemes_append {front : List Lexeme} (h : lexemes line = front ++ [⟨.plain, ['\n']⟩])
    (rest : Text) : lexemes (line ++ rest) = lexemes line ++ lexemes rest := by
  fun_induction constructs line generalizing front with
  | case1 => simp [lexemes_nil] at h
  | case2 c cs kind n hconstruct ih =>
      rcases lexemes_cons_eq_append hconstruct h with
        ⟨later, -, hlater⟩ | (hkind | hkind) | ⟨-, hl, hback⟩
      · have hlt : n < cs.length := by
          rw [← Nat.not_le, ← List.drop_eq_nil_iff]
          intro hnil
          simp [hnil, lexemes_nil] at hlater
        have hcut := lexemes_cons_append (by rwa [hconstruct]) rest
        rw [hconstruct] at hcut
        rw [hcut, ih hlater, lexemes_cons, hconstruct, List.append_assoc]
      · cases hkind
      · cases hkind
      · obtain ⟨-, htext⟩ := Lexeme.mk.inj hl
        obtain ⟨rfl, htake⟩ := List.cons.inj htext
        have hdrop : cs.drop n = [] := by
          rw [← source_lexemes (cs.drop n), ← hback, source_nil]
        obtain rfl : cs = [] := by rw [← List.take_append_drop n cs, ← htake, hdrop]; rfl
        rw [List.singleton_append, lexemes_newline, lexemes_newline, lexemes_nil]
        rfl

/-- A line that ends with a plain lexeme and a new line ends with that new line as a lexeme
of its own. -/
theorem lexemes_append_of_plain {front : List Lexeme} {text : Text}
    (h : lexemes line = front ++ [⟨.plain, text⟩]) (hline : line.getLast? = some '\n')
    (rest : Text) : lexemes (line ++ rest) = lexemes line ++ lexemes rest := by
  have htext : text.getLast? = some '\n' := by
    have hne : text ≠ [] := solid_lexemes line ⟨.plain, text⟩ (by simp [h])
    rw [← source_lexemes line, h, source_append, source_cons, source_nil, List.append_nil,
      List.getLast?_append_of_ne_nil _ hne] at hline
    exact hline
  obtain rfl := eq_newline_of_plain h htext
  exact lexemes_append h rest

end Java

end SourceMarkup
