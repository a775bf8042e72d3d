import SourceMarkup.Proofs.Lexeme.Xml
import SourceMarkup.Proofs.Scan.Read
import SourceMarkup.Scan.Xml

/-!
# The tokens of XML are those of its lexemes

A scan keeps no mode: inside a tag it is in a loop of its own. `resume` is what is
left to do of that loop in a mode, so that a step of the lexer and a part of a scan
can be compared. The loop reads lexemes up to a place between tags, and from there
the outer loop goes on.
-/

namespace SourceMarkup

open Text Lexeme Scan

namespace Xml

variable {s : Scan} {before after : Text} {c : Char} {cs : Text}

/-- What is left to do of the tag that a scan is in. -/
def resume : Mode → Scan → Scan
  | .content => id
  | .tag => scanTag

theorem tells_isNameStart : TellsAsciiOnly isNameStart :=
  tells_of_true fun c hc => by simp [isNameStart, hc]

theorem tells_isNamePart : TellsAsciiOnly isNamePart :=
  tells_of_true fun c hc => by simp [isNamePart, hc]

theorem tells_isEntityPart : TellsAsciiOnly isEntityPart :=
  tells_of_false fun c hc => by
    simp [isEntityPart, isAsciiAlnum_of_beyond hc, ne_of_beyond (d := '#') hc (by decide)]

/-! ### Between tags -/

theorem scanDelimited_eq {kind : TokenKind} (hkind : kind ≠ .plain) {opening : Text}
    {d : Char} {ds : Text} (hopening : isAscii (c :: opening))
    (hterminator : isAscii (d :: ds))
    (h : Stands s before (c :: (opening ++ cs))) :
    scanDelimited kind (c :: opening) (d :: ds) s =
      s.read [⟨kind, c :: (opening ++ cs).take
        (delimitedLength opening (d :: ds) (opening ++ cs))⟩] := by
  have hstands : Stands s before ((c :: opening) ++ cs) := h
  have htake : (opening ++ cs).take (delimitedLength opening (d :: ds) (opening ++ cs)) =
      opening ++ cs.take (throughLength (d :: ds) cs) := by
    rw [delimitedLength, List.drop_left, List.take_length_add_append]
  rw [scanDelimited, hstands.bump_eq (byteLength_of_ascii hopening).symm,
    hstands.skip.eatThrough_eq hterminator, skip_skip, htake]
  exact emit_skip hkind (List.cons_ne_nil c _) s

theorem scanEntity_eq (h : Stands s before ('&' :: cs)) :
    scanEntity s = s.read [⟨(entityStep cs).1, '&' :: cs.take (entityStep cs).2⟩] := by
  have hsplit : cs.takeWhile isEntityPart ++ cs.dropWhile isEntityPart = cs :=
    List.takeWhile_append_dropWhile
  have hbody : (s.bump 1).eatWhile isEntityPart =
      s.skip ('&' :: cs.takeWhile isEntityPart) := by
    rw [Stands.bump_eq (t := ['&']) h (by decide),
      h.skip_cons.eatWhile_eq tells_isEntityPart, skip_skip]
    rfl
  have hstands : Stands (s.skip ('&' :: cs.takeWhile isEntityPart))
      (before ++ '&' :: cs.takeWhile isEntityPart) (cs.dropWhile isEntityPart) := by
    refine Stands.skip ?_
    rwa [List.cons_append, hsplit]
  have hsemicolon : ((s.skip ('&' :: cs.takeWhile isEntityPart)).peek == some ';') =
      ((cs.dropWhile isEntityPart).head? == some ';') :=
    Stands.peekAt_beq (t := []) (by decide) hstands
  have hname : s.pos + 1 < (s.skip ('&' :: cs.takeWhile isEntityPart)).pos ↔
      runLength isEntityPart cs ≠ 0 := by
    have hsize : Char.utf8Size '&' = 1 := by decide
    rw [skip_pos, byteLength_cons, hsize, runLength, Ne, List.length_eq_zero_iff,
      ← byteLength_eq_zero_iff]
    omega
  rw [scanEntity, hbody, hsemicolon]
  simp only [Bool.and_eq_true, beq_iff_eq, decide_eq_true_eq, hname]
  rw [entityStep, drop_runLength]
  by_cases hentity : runLength isEntityPart cs ≠ 0 ∧
      (cs.dropWhile isEntityPart).head? = some ';'
  · obtain ⟨rest, hrest⟩ := List.head?_eq_some_iff.1 hentity.2
    rw [if_pos hentity.symm]
    simp only [if_pos hentity]
    have htake : cs.take (runLength isEntityPart cs + 1) =
        cs.takeWhile isEntityPart ++ [';'] := by
      rw [take_runLength_succ, hrest]
      rfl
    rw [hrest] at hstands
    rw [Stands.bump_eq (t := [';']) hstands (by decide), skip_skip, htake]
    exact emit_skip (by decide) (List.cons_ne_nil '&' _) s
  · rw [if_neg fun h => hentity h.symm]
    simp only [if_neg hentity]
    rw [take_runLength, skip_eq_read]

theorem scanName_eq (opening : Text) {rest : Text} (hopening : isAscii opening)
    (hne : opening ≠ []) (h : Stands s before (opening ++ rest)) :
    ((s.bump opening.length).eatWhile isNamePart).emit .xmlTag s.pos =
      s.read [⟨.xmlTag, opening ++ rest.takeWhile isNamePart⟩] := by
  rw [h.bump_eq (byteLength_of_ascii hopening).symm, h.skip.eatWhile_eq tells_isNamePart,
    skip_skip]
  exact emit_skip (by decide) (by simp [hne]) s

theorem scanTagFromName_eq (h : Stands s before ('<' :: cs)) :
    scanTagFromName s = resume (tagNameStep cs).2.2
      (s.read [⟨(tagNameStep cs).1, '<' :: cs.take (tagNameStep cs).2.1⟩]) := by
  have hplain : s.bump 1 = s.read [⟨.plain, ['<']⟩] := h.bump_one (by decide)
  have hslash : (s.peekAt 1 == some '/') = (cs.head? == some '/') :=
    h.peekAt_one_beq (by decide) (by decide)
  unfold tagNameStep
  split
  · next ds =>
      have hstart : (s.peekAt 2).any isNameStart = ds.head?.any isNameStart :=
        Stands.peekAt_any tells_isNameStart (t := ['<', '/']) h
      have hname : ((s.bump 2).eatWhile isNamePart).emit .xmlTag s.pos =
          s.read [⟨.xmlTag, '<' :: '/' :: ds.takeWhile isNamePart⟩] :=
        scanName_eq ['<', '/'] (by decide) (by decide) h
      have htake : ('/' :: ds).take (runLength isNamePart ds + 1) =
          '/' :: ds.takeWhile isNamePart := by
        rw [List.take_succ_cons, take_runLength]
      have hscan : scanTagFromName s =
          if ds.head?.any isNameStart then
            scanTag (((s.bump 2).eatWhile isNamePart).emit .xmlTag s.pos)
          else s.bump 1 := by
        rw [← hstart]
        simp [scanTagFromName, hslash]
      rw [hscan]
      split
      · rw [htake, hname]
        rfl
      · exact hplain
  · next hcs =>
      have hstart : (s.peekAt 1).any isNameStart = cs.head?.any isNameStart :=
        h.peekAt_one_any tells_isNameStart (by decide)
      have hname : ((s.bump 1).eatWhile isNamePart).emit .xmlTag s.pos =
          s.read [⟨.xmlTag, '<' :: cs.takeWhile isNamePart⟩] :=
        scanName_eq ['<'] (by decide) (by decide) h
      have hno : (cs.head? == some '/') = false := by
        rw [beq_eq_false_iff_ne]
        intro hhead
        obtain ⟨ds, hds⟩ := List.head?_eq_some_iff.1 hhead
        exact hcs ds hds
      have hscan : scanTagFromName s =
          if cs.head?.any isNameStart then
            scanTag (((s.bump 1).eatWhile isNamePart).emit .xmlTag s.pos)
          else s.bump 1 := by
        rw [← hstart]
        simp [scanTagFromName, hslash, hno]
      rw [hscan]
      split
      · rw [take_runLength, hname]
        rfl
      · exact hplain

theorem scanMarkup_eq (h : Stands s before ('<' :: cs)) :
    scanMarkup s = resume (markupStep cs).2.2
      (s.read [⟨(markupStep cs).1, '<' :: cs.take (markupStep cs).2.1⟩]) := by
  have hcomment : s.startsWith "<!--".toList = "!--".toList.isPrefixOf cs :=
    h.startsWith_eq (by decide)
  have hcdata : s.startsWith "<![CDATA[".toList = "![CDATA[".toList.isPrefixOf cs :=
    h.startsWith_eq (by decide)
  have hprolog : s.startsWith "<?".toList = "?".toList.isPrefixOf cs :=
    h.startsWith_eq (by decide)
  have hdeclaration : s.startsWith "<!".toList = "!".toList.isPrefixOf cs :=
    h.startsWith_eq (by decide)
  unfold markupStep
  rw [scanMarkup, hcomment, hcdata, hprolog, hdeclaration]
  split
  · next hprefix =>
      obtain ⟨ds, rfl⟩ := List.isPrefixOf_iff_prefix.1 hprefix
      exact scanDelimited_eq (by decide) (by decide) (by decide) h
  split
  · next hprefix =>
      obtain ⟨ds, rfl⟩ := List.isPrefixOf_iff_prefix.1 hprefix
      exact scanDelimited_eq (by decide) (by decide) (by decide) h
  split
  · next hprefix =>
      obtain ⟨ds, rfl⟩ := List.isPrefixOf_iff_prefix.1 hprefix
      exact scanDelimited_eq (by decide) (by decide) (by decide) h
  split
  · next hprefix =>
      obtain ⟨ds, rfl⟩ := List.isPrefixOf_iff_prefix.1 hprefix
      exact scanDelimited_eq (by decide) (by decide) (by decide) h
  · exact scanTagFromName_eq h

/-! ### Inside a tag -/

theorem scanValue_eq {quote : Char} (hquote : isBeyondAscii quote = false)
    (h : Stands s before (quote :: cs)) :
    (((s.bump 1).eatUntil quote).bump 1).emit .xmlAttributeValue s.pos =
      s.read [⟨.xmlAttributeValue, quote :: cs.take (throughLength [quote] cs)⟩] := by
  have hopening : s.bump 1 = s.skip [quote] :=
    Stands.bump_eq (t := [quote]) h (by simp [utf8Size_of_ascii hquote])
  have hstands : Stands (s.skip (quote :: cs.takeWhile (· != quote)))
      (before ++ quote :: cs.takeWhile (· != quote)) (cs.dropWhile (· != quote)) := by
    refine Stands.skip ?_
    rwa [List.cons_append, List.takeWhile_append_dropWhile]
  have hclosing : (s.skip (quote :: cs.takeWhile (· != quote))).bump 1 =
      s.skip (quote :: cs.take (throughLength [quote] cs)) := by
    rw [take_quotedLength]
    cases hrest : cs.dropWhile (· != quote) with
    | nil =>
        rw [hrest] at hstands
        rw [hstands.bump_eq_of_le (Nat.zero_le 1), skip_skip]
        rfl
    | cons d ds =>
        have hd : d = quote := by
          have := List.head?_dropWhile_not (· != quote) cs
          simpa [hrest] using this
        rw [hrest, hd] at hstands
        rw [Stands.bump_eq (t := [quote]) hstands (by simp [utf8Size_of_ascii hquote]),
          skip_skip, hd]
        rfl
  rw [hopening, h.skip_cons.eatUntil_eq hquote, skip_skip, List.singleton_append,
    hclosing]
  exact emit_skip (by decide) (List.cons_ne_nil quote _) s

/-- What a round in a tag does at `c`, in terms of a step of the lexer: it reads the
lexeme that the step reads, and is the last if the step leaves the tag. -/
def ReadsStep (s : Scan) (c : Char) (cs : Text) : Prop :=
  tagRound s = match (step .tag c cs).2.2 with
    | .content => .done (s.read [firstLexeme .tag c cs])
    | .tag => .again (s.read [firstLexeme .tag c cs])

theorem tagRound_close (h : Stands s before ('>' :: cs)) : ReadsStep s '>' cs := by
  have hstep : step .tag '>' cs = (.xmlTag, 0, .content) := by simp [step, tagStep]
  have hround : tagRound s = .done ((s.bump 1).emit .xmlTag s.pos) := by
    simp [tagRound, h.peek_ascii (show isBeyondAscii '>' = false by decide)]
  have hbump : s.bump 1 = s.skip ['>'] := Stands.bump_eq (t := ['>']) h (by decide)
  rw [ReadsStep, firstLexeme, hstep, hround, hbump, emit_skip (by decide) (by decide)]
  rfl

theorem tagRound_closeEmpty (h : Stands s before ('/' :: '>' :: cs)) :
    ReadsStep s '/' ('>' :: cs) := by
  have hstep : step .tag '/' ('>' :: cs) = (.xmlTag, 1, .content) := by
    simp [step, tagStep]
  have hpeek : (s.peekAt 1 == some '>') = true :=
    h.peekAt_one_beq (by decide) (by decide)
  have hround : tagRound s = .done ((s.bump 2).emit .xmlTag s.pos) := by
    simp [tagRound, h.peek_ascii (show isBeyondAscii '/' = false by decide), hpeek]
  have hbump : s.bump 2 = s.skip ['/', '>'] :=
    Stands.bump_eq (t := ['/', '>']) h (by decide)
  rw [ReadsStep, firstLexeme, hstep, hround, hbump, emit_skip (by decide) (by decide)]
  rfl

theorem tagRound_value (hquote : c = '"' ∨ c = '\'') (h : Stands s before (c :: cs)) :
    ReadsStep s c cs := by
  have hascii : isBeyondAscii c = false := by rcases hquote with rfl | rfl <;> decide
  have hend : c ≠ '>' := by rcases hquote with rfl | rfl <;> decide
  have hslash : c ≠ '/' := by rcases hquote with rfl | rfl <;> decide
  have hstep : step .tag c cs = (.xmlAttributeValue, throughLength [c] cs, .tag) := by
    simp [step, tagStep, hend, hslash, hquote]
  have hround : tagRound s =
      .again ((((s.bump 1).eatUntil c).bump 1).emit .xmlAttributeValue s.pos) := by
    simp [tagRound, h.peek_ascii hascii, hend, hslash, hquote]
  rw [ReadsStep, firstLexeme, hstep, hround, scanValue_eq hascii h]

theorem tagRound_name (hname : isNameStart c) (h : Stands s before (c :: cs)) :
    ReadsStep s c cs := by
  have hne : ∀ {e}, isNameStart e = true →
      e ≠ '>' ∧ e ≠ '/' ∧ e ≠ '"' ∧ e ≠ '\'' ∧ e ≠ '<' := fun he =>
    ⟨ne_of_pred he (by decide), ne_of_pred he (by decide),
      ne_of_pred he (by decide), ne_of_pred he (by decide),
      ne_of_pred he (by decide)⟩
  have hstep : step .tag c cs = (.xmlAttribute, runLength isNamePart cs, .tag) := by
    obtain ⟨hend, hslash, hquote, hapostrophe, hmarkup⟩ := hne hname
    simp [step, tagStep, hend, hslash, hquote, hapostrophe, hmarkup, hname]
  -- The byte at the cursor may be the first of several, but it starts a name, too.
  obtain ⟨d, hpeek, hd⟩ := h.peek_tells tells_isNameStart
  have hround : tagRound s =
      .again ((s.eatWhile isNamePart).emit .xmlAttribute s.pos) := by
    obtain ⟨hend, hslash, hquote, hapostrophe, hmarkup⟩ := hne (hd.trans hname)
    simp [tagRound, hpeek, hend, hslash, hquote, hapostrophe, hmarkup, hd, hname]
  have hword : (s.eatWhile isNamePart).emit .xmlAttribute s.pos =
      s.read [⟨.xmlAttribute, c :: cs.takeWhile isNamePart⟩] := by
    rw [h.eatWhile_eq tells_isNamePart,
      List.takeWhile_cons_of_pos (isNamePart_of_isNameStart hname)]
    exact emit_skip (by decide) (List.cons_ne_nil c _) s
  rw [ReadsStep, firstLexeme, hstep, hround, hword, take_runLength]

theorem tagRound_eq (hc : c ≠ '<') (h : Stands s before (c :: cs)) :
    ReadsStep s c cs := by
  by_cases hend : c = '>'
  · subst hend
    exact tagRound_close h
  by_cases hempty : c = '/' ∧ cs.head? = some '>'
  · obtain ⟨rfl, hcs⟩ := hempty
    obtain ⟨ds, rfl⟩ := List.head?_eq_some_iff.1 hcs
    exact tagRound_closeEmpty h
  by_cases hquote : c = '"' ∨ c = '\''
  · exact tagRound_value hquote h
  by_cases hname : isNameStart c
  · exact tagRound_name hname h
  have hascii : isBeyondAscii c = false := by
    rw [Bool.eq_false_iff]
    intro hbeyond
    exact hname (by rw [isNameStart, hbeyond, Bool.or_true])
  have hstep : step .tag c cs = (.plain, 0, .tag) := by
    simp [step, tagStep, hend, hempty, hquote, hc, hname]
  have hround : tagRound s = .again (s.bump 1) := by
    have hpeek : (s.peekAt 1 == some '>') = (cs.head? == some '>') :=
      h.peekAt_one_beq (by decide) hascii
    have hslash : ¬ (c = '/' ∧ s.peekAt 1 = some '>') := by
      rwa [← beq_iff_eq (a := s.peekAt 1), hpeek, beq_iff_eq]
    simp [tagRound, h.peek_ascii hascii, hend, hslash, hquote, hc, hname]
  rw [ReadsStep, firstLexeme, hstep, hround, h.bump_one hascii]
  rfl

/-- The rest of a tag reads lexemes up to a place between tags. The induction is over
the text after the cursor; a stray `<` ends the tag without being read. -/
theorem scanTag_eq {s : Scan} {before after : Text} (h : Stands s before after) :
    ∃ ls rest, source ls ++ rest = after ∧ scanTag s = s.read ls ∧
      lexemesFrom .tag after = ls ++ lexemesFrom .content rest := by
  cases after with
  | nil =>
      have hround : tagRound s = .done s := by rw [tagRound, h.peek_nil]
      refine ⟨[], [], rfl, ?_, ?_⟩
      · rw [scanTag, Round.loop_done hround, Scan.read_nil]
      · rw [lexemesFrom_nil, lexemesFrom_nil, List.append_nil]
  | cons c cs =>
      by_cases hc : c = '<'
      · subst hc
        have hround : tagRound s = .done s := by
          simp [tagRound, h.peek_ascii (show isBeyondAscii '<' = false by decide)]
        refine ⟨[], '<' :: cs, rfl, ?_, ?_⟩
        · rw [scanTag, Round.loop_done hround, Scan.read_nil]
        · rw [List.nil_append, lexemesFrom_cons, lexemesFrom_cons]
          rfl
      have hround : ReadsStep s c cs := tagRound_eq hc h
      rw [ReadsStep] at hround
      have hsource : source [firstLexeme .tag c cs] ++ cs.drop (step .tag c cs).2.1 =
          c :: cs := by
        simp [firstLexeme]
      have hstands : Stands s before
          (source [firstLexeme .tag c cs] ++ cs.drop (step .tag c cs).2.1) := by
        rwa [hsource]
      cases hmode : (step .tag c cs).2.2 with
      | content =>
          rw [hmode] at hround
          refine ⟨[firstLexeme .tag c cs], cs.drop (step .tag c cs).2.1, hsource, ?_, ?_⟩
          · exact Round.loop_done hround
          · rw [lexemesFrom_cons, hmode]
            rfl
      | tag =>
          rw [hmode] at hround
          have hlt : (cs.drop (step .tag c cs).2.1).length < (c :: cs).length := by
            rw [List.length_drop, List.length_cons]
            omega
          obtain ⟨ls, rest, hrest, hscan, hlexemes⟩ := scanTag_eq hstands.read
          refine ⟨firstLexeme .tag c cs :: ls, rest, ?_, ?_, ?_⟩
          · rw [← hsource, ← hrest]
            simp
          · have hleft := hstands.left_read (List.cons_ne_nil c _)
            have hloop := Round.loop_again hround hleft
            rw [scanTag, hloop, ← scanTag, hscan, ← read_append]
            rfl
          · rw [lexemesFrom_cons, hmode, hlexemes]
            rfl
  termination_by after.length

/-- What is left to do in a mode reads lexemes up to a place between tags. -/
theorem resume_eq (mode : Mode) (h : Stands s before after) :
    ∃ ls rest, source ls ++ rest = after ∧ resume mode s = s.read ls ∧
      lexemesFrom mode after = ls ++ lexemesFrom .content rest := by
  cases mode with
  | content => exact ⟨[], after, rfl, (Scan.read_nil s).symm, rfl⟩
  | tag => exact scanTag_eq h

theorem constructRound_eq (h : Stands s before (c :: cs)) (hc : isBeyondAscii c = false) :
    constructRound s = .again
      (resume (step .content c cs).2.2 (s.read [firstLexeme .content c cs])) := by
  rw [constructRound, h.peek_ascii hc]
  refine congrArg Round.again ?_
  by_cases hmarkup : c = '<'
  · subst hmarkup
    exact scanMarkup_eq h
  by_cases hentity : c = '&'
  · subst hentity
    exact scanEntity_eq h
  have hstep : step .content c cs = (.plain, 0, .content) := by
    simp [step, contentStep, hmarkup, hentity]
  rw [scanConstruct, if_neg hmarkup, if_neg hentity, firstLexeme, hstep, h.bump_one hc]
  rfl

/-- A round at an ASCII character reads some lexemes, up to a place between tags. -/
theorem exists_constructRound (h : Stands s before (c :: cs))
    (hc : isBeyondAscii c = false) :
    ∃ ls rest, source ls ++ rest = c :: cs ∧ source ls ≠ [] ∧
      constructRound s = .again (s.read ls) ∧
      lexemesFrom .content (c :: cs) = ls ++ lexemesFrom .content rest := by
  have hsource : source [firstLexeme .content c cs] ++
      cs.drop (step .content c cs).2.1 = c :: cs := by
    simp [firstLexeme]
  have hstands : Stands s before (source [firstLexeme .content c cs] ++
      cs.drop (step .content c cs).2.1) := by
    rwa [hsource]
  obtain ⟨ls, rest, hrest, hresume, hlexemes⟩ :=
    resume_eq (step .content c cs).2.2 hstands.read
  refine ⟨firstLexeme .content c cs :: ls, rest, ?_, List.cons_ne_nil c _, ?_, ?_⟩
  · rw [← hsource, ← hrest]
    simp
  · rw [constructRound_eq h hc, hresume, ← read_append]
    rfl
  · rw [lexemesFrom_cons, hlexemes]
    rfl

/-- The rounds over a source read its lexemes. -/
theorem constructLoop_eq {s : Scan} {before after : Text} (h : Stands s before after) :
    Round.loop left constructRound s = s.read (lexemesFrom .content after) := by
  cases after with
  | nil =>
      have hround : constructRound s = .done s := by rw [constructRound, h.peek_nil]
      rw [Round.loop_done hround, lexemesFrom_nil, Scan.read_nil]
  | cons c cs =>
      cases hc : isBeyondAscii c with
      | false =>
          obtain ⟨ls, rest, hsource, hne, hround, hlexemes⟩ := exists_constructRound h hc
          have hstands : Stands s before (source ls ++ rest) := by rwa [hsource]
          have hlt : rest.length < (c :: cs).length := by
            rw [← hsource, List.length_append]
            exact Nat.lt_add_of_pos_left (List.length_pos_iff.2 hne)
          rw [Round.loop_again hround (hstands.left_read hne),
            constructLoop_eq hstands.read, ← read_append, hlexemes]
      | true =>
          have hne : ∀ {e}, isBeyondAscii e = true → e ≠ '<' ∧ e ≠ '&' := fun he =>
            ⟨ne_of_beyond he (by decide), ne_of_beyond he (by decide)⟩
          have hpass : ∀ s d, s.peek = some d → isBeyondAscii d →
              constructRound s = .again (s.bump 1) := by
            intro s d hpeek hd
            obtain ⟨hmarkup, hentity⟩ := hne hd
            simp [constructRound, hpeek, scanConstruct, hmarkup, hentity]
          have hstep : step .content c cs = (.plain, 0, .content) := by
            obtain ⟨hmarkup, hentity⟩ := hne hc
            simp [step, contentStep, hmarkup, hentity]
          have hloop : Round.loop left constructRound s =
              Round.loop left constructRound (s.skip [c]) :=
            loop_skip_beyond id (fun _ => rfl) hpass h hc
          rw [hloop, constructLoop_eq h.skip_cons, skip_eq_read, ← read_append,
            lexemesFrom_cons, firstLexeme, hstep]
          rfl
  termination_by after.length

/-- A scan finds the tokens of the lexemes. -/
theorem tokens_eq (source : Text) : tokens source = tokensFrom 0 (lexemes source) := by
  rw [tokens, constructLoop_eq (stands_start source)]
  simp [Scan.read, start, lexemes]

end Xml

end SourceMarkup
