import SourceMarkup.Proofs.Lexeme.JavaPlain
import SourceMarkup.Proofs.Scan.Checked
import SourceMarkup.Scan.Java

/-!
# Checked scans of Java

The scan of Java with all its places checked, and what its loops do: every round leads
ahead, and a construct advances. So the checked scan comes to the tokens of the scan.
-/

namespace SourceMarkup

open Text Scan

namespace Java

variable {s : Scan} {c : Char}

/-! ### Rounds -/

/-- A newline is left to the next construct. -/
theorem forward_quotedRound (quote : Char) :
    Forward id (fun c => c == '\n') (quotedRound quote) := by
  intro s h
  unfold quotedRound
  split
  · next hpeek => exact ahead_of_peek_none hpeek
  · next c hpeek =>
      split
      · exact advances_bump hpeek Nat.two_pos
      split
      · next hc => exact ahead_of_stop hpeek (beq_iff_eq.2 hc)
      split
      · exact .inl (advances_bump hpeek Nat.one_pos)
      · exact advances_bump hpeek Nat.one_pos

theorem forward_textBlockRound : Forward id (fun _ => false) textBlockRound := by
  intro s h
  unfold textBlockRound
  split
  · next hpeek => exact ahead_of_peek_none hpeek
  · next c hpeek =>
      split
      · exact advances_bump hpeek Nat.two_pos
      split
      · exact .inl (advances_bump hpeek (Nat.succ_pos 2))
      · exact advances_bump hpeek Nat.one_pos

theorem forward_numberRound (isExponent : Char → Bool) :
    Forward id (fun c => !isNumberPart c) (numberRound isExponent) := by
  intro s h
  unfold numberRound
  split
  · next hpeek => exact ahead_of_peek_none hpeek
  · next c hpeek =>
      split
      · exact advances_bump hpeek Nat.two_pos
      split
      · exact advances_bump hpeek Nat.one_pos
      · next hpart => exact ahead_of_stop hpeek (by simpa using hpart)

theorem forward_javadocRound : Forward Prod.fst (fun _ => false) javadocRound := by
  rintro ⟨s, part⟩ h
  unfold javadocRound
  dsimp only
  split
  · next hpeek => exact ahead_of_peek_none hpeek
  · next c hpeek =>
      split
      · exact .inl (advances_bump hpeek Nat.two_pos)
      split
      · have hpart := h.reaches.emitRange .javadoc part s.pos
        have hat := advances_bump ((s.peek_emitRange .javadoc part s.pos).trans hpeek) Nat.one_pos
        have hname := hat.inBounds.eatWhile isAsciiAlnum
        exact (hpart.trans_advances (hat.trans hname)).emit .javadocTag s.pos
      · exact advances_bump hpeek Nat.one_pos

/-! ### Constructs -/

theorem advances_scanQuoted (quote : Char) (hpeek : s.peek = some c) :
    Advances s (scanQuoted quote s) := by
  have hquote := advances_bump hpeek Nat.one_pos
  exact hquote.trans ((forward_quotedRound quote).reaches_loop left hquote.inBounds)

theorem advances_scanTextBlock (hpeek : s.peek = some c) : Advances s (scanTextBlock s) := by
  have hquotes := advances_bump hpeek (n := 3) (by decide)
  exact hquotes.trans (forward_textBlockRound.reaches_loop left hquotes.inBounds)

theorem advances_scanNumber (hpeek : s.peek = some c) (hpart : isNumberPart c = true) :
    Advances s (scanNumber s) := by
  unfold scanNumber
  split
  · have hbase := advances_bump hpeek Nat.two_pos
    exact hbase.trans ((forward_numberRound _).reaches_loop left hbase.inBounds)
  · have hround : ∃ t, numberRound isDecimalExponent s = .again t := by
      unfold numberRound
      rw [hpeek]
      simp only [hpart, if_true]
      split <;> exact ⟨_, rfl⟩
    obtain ⟨t, ht⟩ := hround
    exact (forward_numberRound _).advances_loop left (inBounds_of_peek hpeek) ht

theorem advances_scanJavadoc (hpeek : s.peek = some c) : Advances s (scanJavadoc s) := by
  have hopening := advances_bump hpeek (n := 3) (by decide)
  exact (hopening.trans (forward_javadocRound.reaches_loop _
    (s := (s.bump 3, s.pos)) hopening.inBounds)).emit _ _

theorem advances_annotationName (hpeek : s.peek = some c) :
    Advances s ((s.bump 1).eatWhile isIdentifierPart) := by
  have hat := advances_bump hpeek Nat.one_pos
  exact hat.trans (hat.inBounds.eatWhile _)

theorem advances_word (hpeek : s.peek = some c) (hstart : isIdentifierStart c = true) :
    Advances s (s.eatWhile isIdentifierPart) :=
  advances_eatWhile hpeek (isIdentifierPart_of_isIdentifierStart hstart)

/-- A construct is not empty. -/
theorem advances_scanConstruct (hpeek : s.peek = some c) : Advances s (scanConstruct c s) := by
  unfold scanConstruct
  refine iteInduction (fun hslash => ?_) fun _ => ?_
  · have hc : c = '/' := by simpa using (Bool.and_eq_true_iff.1 hslash).1
    exact (advances_eatWhile hpeek (hc ▸ by decide)).emit _ _
  refine iteInduction (fun _ => advances_scanJavadoc hpeek) fun _ => ?_
  refine iteInduction (fun _ => ?_) fun _ => ?_
  · have hopening := advances_bump hpeek Nat.two_pos
    exact (hopening.trans (hopening.inBounds.eatThrough _)).emit _ _
  refine iteInduction (fun _ => (advances_scanTextBlock hpeek).emit _ _) fun _ => ?_
  refine iteInduction (fun _ => (advances_scanQuoted _ hpeek).emit _ _) fun _ => ?_
  refine iteInduction (fun _ => (advances_scanQuoted _ hpeek).emit _ _) fun _ => ?_
  refine iteInduction (fun hdigit => ?_) fun _ => ?_
  · exact (advances_scanNumber hpeek (isNumberPart_of_isAsciiDigit hdigit)).emit _ _
  refine iteInduction (fun hdot => ?_) fun _ => ?_
  · have hc : c = '.' := by simpa using (Bool.and_eq_true_iff.1 hdot).1
    exact (advances_scanNumber hpeek (hc ▸ by decide)).emit _ _
  refine iteInduction (fun _ => (advances_annotationName hpeek).emit _ _) fun _ => ?_
  refine iteInduction (fun hstart => ?_) fun _ => advances_bump hpeek Nat.one_pos
  have hword := advances_word hpeek hstart
  unfold scanWord
  dsimp only
  exact iteInduction (fun _ => hword.emit _ _) fun _ => hword

theorem forward_constructRound : Forward id (fun _ => false) constructRound := by
  intro s h
  unfold constructRound
  split
  · next hpeek => exact ahead_of_peek_none hpeek
  · next c hpeek => exact advances_scanConstruct hpeek

/-! ### The checked scan -/

namespace Checked

def scanQuoted (quote : Char) (s : Scan) : Checked Scan :=
  Checked.loop id (fun t => pure (quotedRound quote t)) (s.bump 1)

def textBlockRound (s : Scan) : Checked (Round Scan) := do
  match s.peek with
  | none => return .done s
  | some c =>
      if c = '\\' then return .again (s.bump 2)
      else if ← Checked.startsWith blockQuotes s then return .done (s.bump 3)
      else return .again (s.bump 1)

def scanTextBlock (s : Scan) : Checked Scan :=
  Checked.loop id textBlockRound (s.bump 3)

def startsHex (s : Scan) : Checked Bool := do
  if ← Checked.startsWith "0x".toList s then return true
  else Checked.startsWith "0X".toList s

def scanNumber (s : Scan) : Checked Scan := do
  if ← startsHex s then
    Checked.loop id (fun t => pure (numberRound isHexExponent t)) (s.bump 2)
  else Checked.loop id (fun t => pure (numberRound isDecimalExponent t)) s

def atTagPosition (s : Scan) : Checked Bool := do
  if 0 < s.pos then
    match ← Checked.slice (s.pos - 1) s.pos s with
    | [] => throw .badSlice
    | c :: _ => return admitsTag c
  else return false

def javadocRound : Scan × Nat → Checked (Round (Scan × Nat))
  | (s, part) => do
      match s.peek with
      | none => return .done (s, part)
      | some c =>
          if ← Checked.startsWith "*/".toList s then return .done (s.bump 2, part)
          else
            let tagPosition ← atTagPosition s
            if c = '@' && tagPosition && (s.peekAt 1).any isAsciiLetter then
              let tag ← Checked.eatWhile isAsciiAlnum
                ((s.emitRange .javadoc part s.pos).bump 1)
              return .again (tag.emit .javadocTag s.pos, tag.pos)
            else return .again (s.bump 1, part)

def scanJavadoc (s : Scan) : Checked Scan := do
  let (t, part) ← Checked.loop Prod.fst javadocRound (s.bump 3, s.pos)
  return t.emit .javadoc part

def scanAnnotation (s : Scan) : Checked Scan := do
  let name ← Checked.eatWhile isIdentifierPart (s.bump 1)
  let kind : TokenKind :=
    if (← Checked.slice s.pos name.pos name) = "@interface".toList then .keyword
    else .annotationName
  return name.emit kind s.pos

def scanWord (s : Scan) : Checked Scan := do
  let word ← Checked.eatWhile isIdentifierPart s
  if keywords.contains (← Checked.slice s.pos word.pos word) then
    return word.emit .keyword s.pos
  else return word

/-- Whether `c` is `d` and the bytes at the cursor start with a text, which is looked for
only then. -/
def opens (d : Char) (t : Text) (c : Char) (s : Scan) : Checked Bool :=
  if c = d then Checked.startsWith t s else pure false

def opensJavadoc (c : Char) (s : Scan) : Checked Bool := do
  if ← opens '/' "/**".toList c s then return !(← Checked.startsWith "/**/".toList s)
  else return false

def scanConstruct (c : Char) (s : Scan) : Checked Scan := do
  if ← opens '/' "//".toList c s then
    return (← Checked.eatUntil '\n' s).emit .lineComment s.pos
  else if ← opensJavadoc c s then scanJavadoc s
  else if ← opens '/' "/*".toList c s then
    return (← Checked.eatThrough "*/".toList (s.bump 2)).emit .blockComment s.pos
  else if ← opens '"' blockQuotes c s then
    return (← scanTextBlock s).emit .stringLiteral s.pos
  else if c = '"' then return (← scanQuoted '"' s).emit .stringLiteral s.pos
  else if c = '\'' then return (← scanQuoted '\'' s).emit .charLiteral s.pos
  else if isAsciiDigit c then return (← scanNumber s).emit .number s.pos
  else if c = '.' && (s.peekAt 1).any isAsciiDigit then
    return (← scanNumber s).emit .number s.pos
  else if c = '@' && (s.peekAt 1).any isIdentifierStart then scanAnnotation s
  else if isIdentifierStart c then scanWord s
  else return s.bump 1

def constructRound (s : Scan) : Checked (Round Scan) := do
  match s.peek with
  | none => return .done s
  | some c => return .again (← scanConstruct c s)

def tokens (source : Text) : Checked (List Token) := do
  return (← Checked.loop id constructRound (start source)).tokens.toList

theorem scanQuoted_eq (h : s.InBounds) (quote : Char) :
    scanQuoted quote s = pure (Java.scanQuoted quote s) :=
  Checked.loop_eq (forward_quotedRound quote) (fun _ _ => rfl) (h.bump 1).inBounds

theorem textBlockRound_eq (s : Scan) (h : s.InBounds) :
    textBlockRound s = pure (Java.textBlockRound s) := by
  unfold textBlockRound Java.textBlockRound
  cases s.peek with
  | none => rfl
  | some c =>
      simp only [Checked.startsWith_eq h, pure_bind]
      split
      · rfl
      · split <;> rfl

theorem scanTextBlock_eq (h : s.InBounds) :
    scanTextBlock s = pure (Java.scanTextBlock s) :=
  Checked.loop_eq forward_textBlockRound textBlockRound_eq (h.bump 3).inBounds

theorem startsHex_eq (h : s.InBounds) :
    startsHex s = pure (s.startsWith "0x".toList || s.startsWith "0X".toList) := by
  unfold startsHex
  rw [Checked.startsWith_eq h, Checked.startsWith_eq h, pure_bind]
  cases s.startsWith "0x".toList <;> rfl

theorem scanNumber_eq (h : s.InBounds) : scanNumber s = pure (Java.scanNumber s) := by
  unfold scanNumber Java.scanNumber
  rw [startsHex_eq h, pure_bind]
  split
  · exact Checked.loop_eq (forward_numberRound _) (fun _ _ => rfl)
      (h.bump 2).inBounds
  · exact Checked.loop_eq (forward_numberRound _) (fun _ _ => rfl) h

theorem atTagPosition_eq (h : s.InBounds) :
    atTagPosition s = pure (Java.atTagPosition s) := by
  unfold atTagPosition Java.atTagPosition
  split
  · next hpos =>
      obtain ⟨c, hc⟩ := s.exists_slice_eq_singleton hpos h
      rw [Checked.slice_eq (Nat.sub_le _ _) h, pure_bind, hc, decide_eq_true hpos]
      simp
  · next hpos => rw [decide_eq_false hpos, Bool.false_and]

theorem javadocRound_eq (state : Scan × Nat) (h : state.1.InBounds) :
    javadocRound state = pure (Java.javadocRound state) := by
  obtain ⟨s, part⟩ := state
  have hat : ((s.emitRange .javadoc part s.pos).bump 1).InBounds :=
    ((h.reaches.emitRange .javadoc part s.pos).inBounds.bump 1).inBounds
  unfold javadocRound Java.javadocRound
  dsimp only
  cases s.peek with
  | none => rfl
  | some c =>
      simp only [Checked.startsWith_eq h, atTagPosition_eq h, Checked.eatWhile_eq hat, pure_bind]
      split
      · rfl
      · split <;> rfl

theorem scanJavadoc_eq (h : s.InBounds) : scanJavadoc s = pure (Java.scanJavadoc s) := by
  unfold scanJavadoc
  rw [Checked.loop_eq forward_javadocRound javadocRound_eq (h.bump 3).inBounds]
  rfl

theorem scanAnnotation_eq (h : s.InBounds) :
    scanAnnotation s = pure (Java.scanAnnotation s) := by
  have hname := (h.bump 1).trans ((h.bump 1).inBounds.eatWhile isIdentifierPart)
  unfold scanAnnotation
  rw [Checked.eatWhile_eq (h.bump 1).inBounds, pure_bind,
    Checked.slice_eq hname.pos_le hname.inBounds]
  rfl

theorem scanWord_eq (h : s.InBounds) : scanWord s = pure (Java.scanWord s) := by
  have hword := h.eatWhile isIdentifierPart
  unfold scanWord Java.scanWord
  rw [Checked.eatWhile_eq h, pure_bind, Checked.slice_eq hword.pos_le hword.inBounds, pure_bind]
  dsimp only
  split <;> rfl

theorem opens_eq (h : s.InBounds) (d : Char) (t : Text) (c : Char) :
    opens d t c s = pure (c = d && s.startsWith t) := by
  unfold opens
  split
  · next hc => rw [Checked.startsWith_eq h, decide_eq_true hc, Bool.true_and]
  · next hc => rw [decide_eq_false hc, Bool.false_and]

theorem opensJavadoc_eq (h : s.InBounds) (c : Char) :
    opensJavadoc c s =
      pure (c = '/' && s.startsWith "/**".toList && !s.startsWith "/**/".toList) := by
  unfold opensJavadoc
  rw [opens_eq h, Checked.startsWith_eq h, pure_bind, pure_bind]
  cases decide (c = '/') && s.startsWith "/**".toList <;> rfl

/-- A construct is scanned without a fault. -/
theorem scanConstruct_eq (h : s.InBounds) (c : Char) :
    scanConstruct c s = pure (Java.scanConstruct c s) := by
  unfold scanConstruct Java.scanConstruct
  simp only [opens_eq h, opensJavadoc_eq h, Checked.eatUntil_eq h, scanJavadoc_eq h,
    Checked.eatThrough_eq (h.bump 2).inBounds, scanTextBlock_eq h, scanQuoted_eq h,
    scanNumber_eq h, scanAnnotation_eq h, scanWord_eq h, pure_bind,
    apply_ite (pure : Scan → Checked Scan)]

theorem constructRound_eq (s : Scan) (h : s.InBounds) :
    constructRound s = pure (Java.constructRound s) := by
  unfold constructRound Java.constructRound
  cases s.peek with
  | none => rfl
  | some c =>
      dsimp only
      rw [scanConstruct_eq h, pure_bind]

theorem tokens_eq_pure (source : Text) : tokens source = pure (Java.tokens source) := by
  unfold tokens
  rw [Checked.loop_eq forward_constructRound constructRound_eq (Nat.zero_le _)]
  rfl

end Checked

end Java

end SourceMarkup
