import SourceMarkup.Proofs.Scan.Java
import SourceMarkup.Proofs.Scan.Javadoc

/-!
# The tokens of Java are those of its lexemes

A round reads one construct, and the rounds together read the lexemes of the source.
-/

namespace SourceMarkup

open Text Lexeme Scan

namespace Java

variable {s : Scan} {before after : Text} {c : Char} {cs : Text}

def firstConstruct (c : Char) (cs : Text) : Lexeme :=
  ⟨(construct c cs).1, c :: cs.take (construct c cs).2⟩

theorem emit_construct {kind : TokenKind} (hplain : kind ≠ .plain)
    (hjavadoc : kind ≠ .javadoc) (s : Scan) (c : Char) (t : Text) :
    (s.skip (c :: t)).emit kind s.pos = s.read (splitJavadoc ⟨kind, c :: t⟩) := by
  rw [splitJavadoc_of_ne hjavadoc, emit_skip hplain (List.cons_ne_nil c t)]

theorem scanConstruct_line (h : Stands s before ('/' :: '/' :: cs)) :
    scanConstruct '/' s = s.read (splitJavadoc (firstConstruct '/' ('/' :: cs))) := by
  have hline := h.startsWith_eq (p := ['/', '/']) (by decide)
  have hfirst : firstConstruct '/' ('/' :: cs) =
      ⟨.lineComment, '/' :: ('/' :: cs).takeWhile (· != '\n')⟩ := by
    rw [← take_runLength]
    rfl
  have huntil : s.eatUntil '\n' = s.skip ('/' :: ('/' :: cs).takeWhile (· != '\n')) :=
    h.eatUntil_eq (by decide)
  have hscan : scanConstruct '/' s = (s.eatUntil '\n').emit .lineComment s.pos := by
    simp [scanConstruct, hline]
  rw [hscan, huntil, hfirst, emit_construct (by decide) (by decide)]

/-- A comment is read through its first end, whichever its kind is. -/
theorem scanComment_eq {kind : TokenKind} (hplain : kind ≠ .plain)
    (h : Stands s before ('/' :: '*' :: cs)) :
    ((s.bump 2).eatThrough ['*', '/']).emit kind s.pos =
      s.read [⟨kind, '/' :: '*' :: commentRest cs⟩] := by
  have hstands : Stands s before (['/', '*'] ++ cs) := h
  rw [hstands.bump_eq (by decide), hstands.skip.eatThrough_eq (by decide), skip_skip]
  exact emit_skip hplain (List.cons_ne_nil '/' _) s

theorem scanConstruct_comment (h : Stands s before ('/' :: '*' :: cs)) :
    scanConstruct '/' s = s.read (splitJavadoc (firstConstruct '/' ('*' :: cs))) := by
  have hline := h.startsWith_eq (p := ['/', '/']) (by decide)
  have hblock := h.startsWith_eq (p := ['/', '*']) (by decide)
  have hfirst : firstConstruct '/' ('*' :: cs) =
      ⟨if isJavadocBody cs then .javadoc else .blockComment,
        '/' :: '*' :: commentRest cs⟩ := rfl
  have hbody : (s.startsWith ['/', '*', '*'] && !s.startsWith ['/', '*', '*', '/']) =
      isJavadocBody cs := by
    rw [h.startsWith_eq (by decide), h.startsWith_eq (by decide), isJavadocBody_eq]
    rfl
  cases hcs : isJavadocBody cs with
  | true =>
      rw [hcs] at hbody hfirst
      have hscan : scanConstruct '/' s = scanJavadoc s := by
        simp [scanConstruct, hline, hbody]
      rw [isJavadocBody_eq, Bool.and_eq_true, Bool.not_eq_true'] at hcs
      obtain ⟨rest, rfl⟩ := List.isPrefixOf_iff_prefix.1 hcs.1
      have hrest : commentRest ('*' :: rest) = '*' :: commentRest rest :=
        commentRest_cons hcs.2
      rw [hscan, scanJavadoc_eq h, hfirst, List.singleton_append, hrest]
      rfl
  | false =>
      rw [hcs] at hbody hfirst
      have hscan : scanConstruct '/' s =
          ((s.bump 2).eatThrough ['*', '/']).emit .blockComment s.pos := by
        simp [scanConstruct, hline, hbody, hblock]
      rw [hscan, scanComment_eq (by decide) h, hfirst]
      exact congrArg s.read (splitJavadoc_of_ne (by decide) _).symm

theorem scanConstruct_slash (h : Stands s before ('/' :: cs)) :
    scanConstruct '/' s = s.read (splitJavadoc (firstConstruct '/' cs)) := by
  by_cases hline : cs.head? = some '/'
  · obtain ⟨ds, rfl⟩ := List.head?_eq_some_iff.1 hline
    exact scanConstruct_line h
  · by_cases hcomment : cs.head? = some '*'
    · obtain ⟨ds, rfl⟩ := List.head?_eq_some_iff.1 hcomment
      exact scanConstruct_comment h
    · have hslashes : s.startsWith ['/', '/'] = false :=
        h.startsWith_of_second (by decide) fun _ => hline
      have hblock : s.startsWith ['/', '*'] = false :=
        h.startsWith_of_second (by decide) fun _ => hcomment
      have hjavadoc : s.startsWith ['/', '*', '*'] = false :=
        h.startsWith_of_second (by decide) fun _ => hcomment
      have hfirst : firstConstruct '/' cs = ⟨.plain, ['/']⟩ := by
        unfold firstConstruct construct
        rw [if_pos rfl]
        split <;> simp_all
      rw [hfirst, splitJavadoc_of_ne (by decide), ← h.bump_one (by decide)]
      simp [scanConstruct, hslashes, hblock, hjavadoc, isAsciiDigit, isIdentifierStart,
        isAsciiLetter, isBeyondAscii]

theorem scanConstruct_quote (h : Stands s before ('"' :: cs)) :
    scanConstruct '"' s = s.read (splitJavadoc (firstConstruct '"' cs)) := by
  have hblock := h.startsWith_eq (p := blockQuotes) (by decide)
  cases hquotes : blockQuotes.isPrefixOf ('"' :: cs) with
  | true =>
      rw [hquotes] at hblock
      obtain ⟨ds, hds⟩ := List.isPrefixOf_iff_prefix.1 hquotes
      have hcs : cs = '"' :: '"' :: ds := (List.cons.inj hds).2.symm
      subst hcs
      have hstands : Stands s before (blockQuotes ++ ds) := h
      have hscan : scanConstruct '"' s = (scanTextBlock s).emit .stringLiteral s.pos := by
        simp [scanConstruct, hblock]
      rw [hscan, scanTextBlock, hstands.bump_eq (by decide),
        textBlockLoop_eq hstands.skip, skip_skip]
      exact emit_construct (by decide) (by decide) s '"' _
  | false =>
      rw [hquotes] at hblock
      have hfirst : firstConstruct '"' cs =
          ⟨.stringLiteral, '"' :: cs.take (quotedLength '"' cs)⟩ := by
        unfold firstConstruct construct
        rw [if_neg (by decide), if_pos rfl]
        split
        · simp [blockQuotes] at hquotes
        · rfl
      have hscan : scanConstruct '"' s =
          (scanQuoted '"' s).emit .stringLiteral s.pos := by
        simp [scanConstruct, hblock]
      rw [hscan, scanQuoted, Stands.bump_eq (t := ['"']) h (by decide),
        quotedLoop_eq (by decide) h.skip_cons, skip_skip, hfirst]
      exact emit_construct (by decide) (by decide) s '"' _

theorem scanConstruct_apostrophe (h : Stands s before ('\'' :: cs)) :
    scanConstruct '\'' s = s.read (splitJavadoc (firstConstruct '\'' cs)) := by
  have hscan : scanConstruct '\'' s = (scanQuoted '\'' s).emit .charLiteral s.pos := by
    simp [scanConstruct]
  rw [hscan, scanQuoted, Stands.bump_eq (t := ['\'']) h (by decide),
    quotedLoop_eq (by decide) h.skip_cons, skip_skip]
  exact emit_construct (by decide) (by decide) s '\'' _

theorem isDecimalExponent_of_beyond (c : Char) (h : isBeyondAscii c) :
    isDecimalExponent c = false := by
  simp [isDecimalExponent, ne_of_beyond (d := 'e') h (by decide),
    ne_of_beyond (d := 'E') h (by decide)]

theorem isHexExponent_of_beyond (c : Char) (h : isBeyondAscii c) :
    isHexExponent c = false := by
  simp [isHexExponent, ne_of_beyond (d := 'p') h (by decide),
    ne_of_beyond (d := 'P') h (by decide)]

theorem isDecimalExponent_of_isAsciiDigit (h : isAsciiDigit c) :
    isDecimalExponent c = false := by
  have hlower : c ≠ 'e' := ne_of_pred h (by decide)
  have hupper : c ≠ 'E' := ne_of_pred h (by decide)
  simp [isDecimalExponent, hlower, hupper]

theorem decimalLength_cons (hexponent : isDecimalExponent c = false)
    (hpart : isNumberPart c = true) :
    numberLength isDecimalExponent (c :: cs) = numberLength isDecimalExponent cs + 1 := by
  rw [numberLength.eq_def]
  simp [hexponent, hpart]

/-- A number that starts with a character other than a base prefix is decimal. -/
theorem decimal_eq (h : Stands s before (c :: cs))
    (hexponent : isDecimalExponent c = false) (hpart : isNumberPart c = true) :
    Round.loop left (numberRound isDecimalExponent) s =
      s.skip (c :: cs.take (numberLength isDecimalExponent cs)) := by
  rw [numberLoop_eq isDecimalExponent_of_beyond h, decimalLength_cons hexponent hpart,
    List.take_succ_cons]

theorem scanNumber_hex {x : Char} (hx : x = 'x' ∨ x = 'X')
    (h : Stands s before ('0' :: x :: cs)) :
    scanNumber s = s.skip ('0' :: x :: cs.take (numberLength isHexExponent cs)) := by
  have hstands : Stands s before (['0', x] ++ cs) := h
  have hlower := h.startsWith_eq (p := ['0', 'x']) (by decide)
  have hupper := h.startsWith_eq (p := ['0', 'X']) (by decide)
  have hsize : byteLength ['0', x] = 2 := by rcases hx with rfl | rfl <;> decide
  have hstart : (s.startsWith ['0', 'x'] || s.startsWith ['0', 'X']) = true := by
    rw [hlower, hupper]
    rcases hx with rfl | rfl <;> simp
  have hscan : scanNumber s = Round.loop left (numberRound isHexExponent) (s.bump 2) :=
    if_pos hstart
  rw [hscan, hstands.bump_eq hsize.symm,
    numberLoop_eq isHexExponent_of_beyond hstands.skip, skip_skip]
  rfl

theorem scanNumber_eq (hc : isAsciiDigit c) (h : Stands s before (c :: cs)) :
    scanNumber s = s.skip (c :: cs.take (numberTailLength c cs)) := by
  rcases base_cases c cs with ⟨rfl, x, ds, hx, rfl⟩ | hbase
  · rw [numberTailLength_hex hx]
    exact scanNumber_hex hx h
  · have hlower : s.startsWith ['0', 'x'] = false :=
      h.startsWith_of_second (by decide) fun hzero hx => hbase ⟨hzero, .inl hx⟩
    have hupper : s.startsWith ['0', 'X'] = false :=
      h.startsWith_of_second (by decide) fun hzero hx => hbase ⟨hzero, .inr hx⟩
    rw [numberTailLength_decimal hbase, ← decimal_eq h (isDecimalExponent_of_isAsciiDigit hc)
      (isNumberPart_of_isAsciiDigit hc)]
    exact if_neg (by simp [hlower, hupper])

theorem scanConstruct_digit (hc : isAsciiDigit c) (h : Stands s before (c :: cs)) :
    scanConstruct c s = s.read (splitJavadoc (firstConstruct c cs)) := by
  have hslash : c ≠ '/' := ne_of_pred hc (by decide)
  have hquote : c ≠ '"' := ne_of_pred hc (by decide)
  have hapostrophe : c ≠ '\'' := ne_of_pred hc (by decide)
  have hfirst : firstConstruct c cs =
      ⟨.number, c :: cs.take (numberTailLength c cs)⟩ := by
    simp [firstConstruct, construct, hslash, hquote, hapostrophe, hc]
  have hscan : scanConstruct c s = (scanNumber s).emit .number s.pos := by
    simp [scanConstruct, hslash, hquote, hapostrophe, hc]
  rw [hscan, scanNumber_eq hc h, hfirst, emit_construct (by decide) (by decide)]

theorem scanConstruct_dot (hcs : cs.head?.any isAsciiDigit)
    (h : Stands s before ('.' :: cs)) :
    scanConstruct '.' s = s.read (splitJavadoc (firstConstruct '.' cs)) := by
  have hpeek : (s.peekAt 1).any isAsciiDigit = true :=
    (h.peekAt_one_any tells_isAsciiDigit (by decide)).trans hcs
  have hlower := h.startsWith_eq (p := ['0', 'x']) (by decide)
  have hupper := h.startsWith_eq (p := ['0', 'X']) (by decide)
  have hfirst : firstConstruct '.' cs =
      ⟨.number, '.' :: cs.take (numberLength isDecimalExponent cs)⟩ := by
    simp [firstConstruct, construct, isAsciiDigit, hcs]
  have hscan : scanConstruct '.' s =
      (Round.loop left (numberRound isDecimalExponent) s).emit .number s.pos := by
    simp [scanConstruct, scanNumber, isAsciiDigit, hpeek, hlower, hupper]
  rw [hscan, decimal_eq h (by decide) (by decide), hfirst,
    emit_construct (by decide) (by decide)]

theorem tells_isIdentifierStart : TellsAsciiOnly isIdentifierStart :=
  tells_of_true fun c hc => by simp [isIdentifierStart, hc]

theorem tells_isIdentifierPart : TellsAsciiOnly isIdentifierPart :=
  tells_of_true fun c hc => by simp [isIdentifierPart, isIdentifierStart, hc]

theorem scanConstruct_annotation (hcs : cs.head?.any isIdentifierStart)
    (h : Stands s before ('@' :: cs)) :
    scanConstruct '@' s = s.read (splitJavadoc (firstConstruct '@' cs)) := by
  have hpeek : (s.peekAt 1).any isIdentifierStart = true :=
    (h.peekAt_one_any tells_isIdentifierStart (by decide)).trans hcs
  have hname : (s.bump 1).eatWhile isIdentifierPart =
      s.skip ('@' :: cs.takeWhile isIdentifierPart) := by
    rw [Stands.bump_eq (t := ['@']) h (by decide),
      h.skip_cons.eatWhile_eq tells_isIdentifierPart, skip_skip]
    rfl
  have hstands : Stands s before
      (('@' :: cs.takeWhile isIdentifierPart) ++ cs.dropWhile isIdentifierPart) := by
    rwa [List.cons_append, List.takeWhile_append_dropWhile]
  have hfirst : firstConstruct '@' cs =
      ⟨if cs.takeWhile isIdentifierPart = "interface".toList then .keyword
        else .annotationName, '@' :: cs.takeWhile isIdentifierPart⟩ := by
    have htake : cs.take (cs.takeWhile isIdentifierPart).length =
        cs.takeWhile isIdentifierPart := take_runLength isIdentifierPart cs
    have hconstruct : construct '@' cs =
        (if cs.takeWhile isIdentifierPart = "interface".toList then .keyword
          else .annotationName, (cs.takeWhile isIdentifierPart).length) := by
      rw [construct.eq_def, if_neg (by decide), if_neg (by decide), if_neg (by decide),
        if_neg (by decide), if_neg (by simp), if_pos (by rw [hcs]; rfl)]
    rw [firstConstruct, hconstruct, htake]
  have hinterface :
      byteChars ('@' :: cs.takeWhile isIdentifierPart) = "@interface".toList ↔
      cs.takeWhile isIdentifierPart = "interface".toList := by
    rw [byteChars_eq_iff (by decide)]
    exact List.cons_inj_right '@'
  have hscan : scanConstruct '@' s = scanAnnotation s := by
    simp [scanConstruct, isAsciiDigit, hpeek]
  rw [hscan, scanAnnotation, hname, hstands.slice_skip]
  simp only [hinterface]
  rw [hfirst]
  refine emit_construct ?_ ?_ s '@' _
  · split <;> decide
  · split <;> decide

/-- Keywords are ASCII texts, so two texts that cannot be told apart from ASCII texts are
both keywords or both none. -/
theorem contains_keywords_eq {t u : Text} (h : ∀ p : Text, p.isAscii → (t = p ↔ u = p)) :
    keywords.contains t = keywords.contains u := by
  have hascii : ∀ word ∈ keywords, isAscii word := by decide
  rw [Bool.eq_iff_iff, List.contains_iff_mem, List.contains_iff_mem]
  constructor
  · intro ht
    rwa [(h t (hascii t ht)).1 rfl]
  · intro hu
    rwa [(h u (hascii u hu)).2 rfl]

theorem scanConstruct_word (hc : isIdentifierStart c) (h : Stands s before (c :: cs))
    {d : Char} (hd : isIdentifierStart d) :
    scanConstruct d s = s.read (splitJavadoc (firstConstruct c cs)) := by
  have hpart : isIdentifierPart c = true := by rw [isIdentifierPart, hc, Bool.true_or]
  have hword : s.eatWhile isIdentifierPart =
      s.skip (c :: cs.takeWhile isIdentifierPart) := by
    rw [h.eatWhile_eq tells_isIdentifierPart, List.takeWhile_cons_of_pos hpart]
  have hstands : Stands s before
      ((c :: cs.takeWhile isIdentifierPart) ++ cs.dropWhile isIdentifierPart) := by
    rwa [List.cons_append, List.takeWhile_append_dropWhile]
  have hne : ∀ {e}, isIdentifierStart e = true → ∀ f, isIdentifierStart f = false →
      e ≠ f := fun he _ hf => ne_of_pred he hf
  have hfirst : firstConstruct c cs =
      ⟨if keywords.contains (c :: cs.takeWhile isIdentifierPart) then .keyword
        else .plain, c :: cs.takeWhile isIdentifierPart⟩ := by
    have hconstruct : construct c cs =
        (if keywords.contains (c :: cs.takeWhile isIdentifierPart) then .keyword
          else .plain, (cs.takeWhile isIdentifierPart).length) := by
      rw [construct.eq_def, if_neg (hne hc _ (by decide)), if_neg (hne hc _ (by decide)),
        if_neg (hne hc _ (by decide)),
        if_neg (by simp [isAsciiDigit_of_isIdentifierStart hc]),
        if_neg (by simp [hne hc '.' (by decide)]),
        if_neg (by simp [hne hc '@' (by decide)]), if_pos hc]
    have htake : cs.take (cs.takeWhile isIdentifierPart).length =
        cs.takeWhile isIdentifierPart := take_runLength isIdentifierPart cs
    rw [firstConstruct, hconstruct, htake]
  have hscan : scanConstruct d s = scanWord s := by
    simp [scanConstruct, hne hd '/' (by decide), hne hd '"' (by decide),
      hne hd '\'' (by decide), hne hd '.' (by decide), hne hd '@' (by decide),
      isAsciiDigit_of_isIdentifierStart hd, hd]
  rw [hscan, scanWord, hword, hstands.slice_skip,
    contains_keywords_eq fun _ hp => byteChars_eq_iff hp _, hfirst]
  split
  · exact emit_construct (by decide) (by decide) s c _
  · rw [skip_eq_read, splitJavadoc_of_ne (by decide)]

/-- What starts no construct is plain. -/
theorem scanConstruct_plain (hslash : c ≠ '/') (hquote : c ≠ '"') (hapostrophe : c ≠ '\'')
    (hdigit : ¬ isAsciiDigit c = true)
    (hdot : ¬ (c = '.' ∧ cs.head?.any isAsciiDigit = true))
    (hat : ¬ (c = '@' ∧ cs.head?.any isIdentifierStart = true))
    (hword : ¬ isIdentifierStart c = true) (hc : isBeyondAscii c = false)
    (h : Stands s before (c :: cs)) :
    scanConstruct c s = s.read (splitJavadoc (firstConstruct c cs)) := by
  have hfirst : firstConstruct c cs = ⟨.plain, [c]⟩ := by
    have hconstruct : construct c cs = (.plain, 0) := by
      rw [construct.eq_def, if_neg hslash, if_neg hquote, if_neg hapostrophe,
        if_neg hdigit, if_neg (by simpa using hdot), if_neg (by simpa using hat), if_neg hword]
    rw [firstConstruct, hconstruct, List.take_zero]
  rw [← h.peekAt_one_any tells_isAsciiDigit hc] at hdot
  rw [← h.peekAt_one_any tells_isIdentifierStart hc] at hat
  have hscan : scanConstruct c s = s.bump 1 := by
    rw [scanConstruct, if_neg (by simp [hslash]), if_neg (by simp [hslash]),
      if_neg (by simp [hslash]), if_neg (by simp [hquote]), if_neg hquote,
      if_neg hapostrophe, if_neg hdigit, if_neg (by simpa using hdot),
      if_neg (by simpa using hat), if_neg hword]
  rw [hscan, hfirst, splitJavadoc_of_ne (by decide), h.bump_one hc]

/-- A round over an ASCII character reads the construct that it starts. -/
theorem scanConstruct_eq (h : Stands s before (c :: cs)) (hc : isBeyondAscii c = false) :
    scanConstruct c s = s.read (splitJavadoc (firstConstruct c cs)) := by
  by_cases hslash : c = '/'
  · subst hslash
    exact scanConstruct_slash h
  by_cases hquote : c = '"'
  · subst hquote
    exact scanConstruct_quote h
  by_cases hapostrophe : c = '\''
  · subst hapostrophe
    exact scanConstruct_apostrophe h
  by_cases hdigit : isAsciiDigit c
  · exact scanConstruct_digit hdigit h
  by_cases hdot : c = '.' ∧ cs.head?.any isAsciiDigit
  · obtain ⟨rfl, hcs⟩ := hdot
    exact scanConstruct_dot hcs h
  by_cases hat : c = '@' ∧ cs.head?.any isIdentifierStart
  · obtain ⟨rfl, hcs⟩ := hat
    exact scanConstruct_annotation hcs h
  by_cases hword : isIdentifierStart c
  · exact scanConstruct_word hword h hword
  · exact scanConstruct_plain hslash hquote hapostrophe hdigit hdot hat hword hc h

theorem constructRound_eq (h : Stands s before (c :: cs)) :
    constructRound s = .again (s.read (splitJavadoc (firstConstruct c cs))) := by
  cases hc : isBeyondAscii c with
  | false =>
      rw [constructRound, h.peek_ascii hc]
      exact congrArg Round.again (scanConstruct_eq h hc)
  | true =>
      obtain ⟨d, hpeek, hd⟩ := h.peek_beyond hc
      have hstart : ∀ {e}, isBeyondAscii e = true → isIdentifierStart e = true :=
        fun he => by rw [isIdentifierStart, he, Bool.or_true]
      rw [constructRound, hpeek]
      exact congrArg Round.again (scanConstruct_word (hstart hc) h (hstart hd))

/-- Rounds that read one construct each read the constructs of a source, split as each
round splits its own. -/
theorem constructsLoop_eq {round : Scan → Round Scan} {split : Lexeme → List Lexeme}
    (hsource : ∀ l, source (split l) = l.text)
    (hdone : ∀ {s before}, Stands s before [] → round s = .done s)
    (hround : ∀ {s before c cs}, Stands s before (c :: cs) →
      round s = .again (s.read (split (firstConstruct c cs))))
    {s : Scan} {before after : Text} (h : Stands s before after) :
    Round.loop left round s = s.read ((constructs after).flatMap split) := by
  cases after with
  | nil => rw [Round.loop_done (hdone h), constructs, List.flatMap_nil, Scan.read_nil]
  | cons c cs =>
      have hfirst : source (split (firstConstruct c cs)) =
          c :: cs.take (construct c cs).2 := hsource _
      have hstands : Stands s before (source (split (firstConstruct c cs)) ++
          cs.drop (construct c cs).2) := by
        rwa [hfirst, List.cons_append, List.take_append_drop]
      have hleft := hstands.left_read (by rw [hfirst]; exact List.cons_ne_nil c _)
      have hlt : (cs.drop (construct c cs).2).length < (c :: cs).length := by
        rw [List.length_drop, List.length_cons]
        omega
      rw [Round.loop_again (hround h) hleft,
        constructsLoop_eq hsource hdone hround hstands.read, ← read_append, constructs,
        List.flatMap_cons]
      rfl
  termination_by after.length

theorem constructRound_nil (h : Stands s before []) : constructRound s = .done s := by
  rw [constructRound, h.peek_nil]

/-- A scan finds the tokens of the lexemes. -/
theorem tokens_eq (source : Text) : tokens source = tokensFrom 0 (lexemes source) := by
  rw [tokens, constructsLoop_eq source_splitJavadoc constructRound_nil constructRound_eq
    (stands_start source)]
  simp [Scan.read, start, lexemes]

theorem mem_spansFrom_of_mem_tokens {source : Text} {token : Token}
    (h : token ∈ tokens source) : token ∈ spansFrom 0 (lexemes source) := by
  rw [tokens_eq, tokensFrom_eq_filter] at h
  exact (List.mem_filter.1 h).1

end Java

end SourceMarkup
