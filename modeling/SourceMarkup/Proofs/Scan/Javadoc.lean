import SourceMarkup.Proofs.Lexeme.Java
import SourceMarkup.Proofs.Scan.Read
import SourceMarkup.Scan.Java

/-!
# What a scan of a javadoc comment reads

The loop over a javadoc comment keeps the offset of the part without tags that it
stands in. The statement about it therefore speaks of a scan at that offset, and of
the text `pending` between it and the cursor.
-/

namespace SourceMarkup

open Text Lexeme Scan

namespace Java

variable {s : Scan} {before after : Text}

def commentEnd : Text := ['*', '/']

theorem admitsTag_of_beyond {c : Char} (h : isBeyondAscii c) : admitsTag c = false := by
  have hne : ∀ d, isBeyondAscii d = false → (c == d) = false :=
    fun d hd => beq_false_of_ne (ne_of_beyond h hd)
  simp only [admitsTag, hne ' ' (by decide), hne '\t' (by decide), hne '*' (by decide),
    hne '\n' (by decide), hne '{' (by decide), Bool.or_false]

/-- The byte before the cursor admits a tag if the character before it does. -/
theorem atTagPosition_eq {previous : Char}
    (h : Stands s (before ++ [previous]) after) :
    atTagPosition s = admitsTag previous := by
  have hpos : s.pos = before.byteLength + previous.utf8Size := by
    rw [h.pos_eq, byteLength_append, byteLength_cons, byteLength_nil, Nat.add_zero]
  have hsize := previous.utf8Size_pos
  have hslice : s.slice (s.pos - 1) s.pos =
      (charBytes previous).drop (previous.utf8Size - 1) := by
    have hbytes : s.bytes.toList.map charOfByte =
        byteChars before ++ (charBytes previous ++ byteChars after) := by
      rw [h.bytes_eq, ← byteChars, byteChars_append, byteChars_append, byteChars_cons]
      simp
    have hlen : (byteChars before).length ≤ s.pos - 1 := by
      rw [length_byteChars]
      omega
    have hdrop : s.pos - 1 - (byteChars before).length = previous.utf8Size - 1 := by
      rw [length_byteChars]
      omega
    have htake : s.pos - (s.pos - 1) =
        ((charBytes previous).drop (previous.utf8Size - 1)).length := by
      rw [List.length_drop, length_charBytes]
      omega
    rw [slice, Array.toList_extract, List.extract_eq_take_drop, List.map_take,
      List.map_drop, hbytes, List.drop_append, List.drop_eq_nil_of_le hlen,
      List.nil_append, hdrop,
      List.drop_append_of_le_length (by rw [length_charBytes]; omega), htake,
      List.take_left]
  have hpositive : decide (0 < s.pos) = true := by
    rw [decide_eq_true_iff]
    omega
  rw [atTagPosition, hslice, hpositive, Bool.true_and]
  cases hprevious : isBeyondAscii previous with
  | false => simp [charBytes_of_ascii hprevious, utf8Size_of_ascii hprevious]
  | true =>
      rw [admitsTag_of_beyond hprevious, List.any_eq_false]
      intro d hd
      have hbeyond := isBeyondAscii_of_mem_charBytes hprevious (List.mem_of_mem_drop hd)
      simp [admitsTag_of_beyond hbeyond]

theorem emit_skip_javadoc (s : Scan) (t : Text) :
    (s.skip t).emit .javadoc s.pos = s.read (javadocPart t) := by
  cases t with
  | nil => simp [emit, emitRange, javadocPart]
  | cons c cs => exact emit_skip (by decide) (List.cons_ne_nil c cs) s

/-- The part of a text up to the end of a comment. -/
def commentRest (t : Text) : Text :=
  t.take (throughLength commentEnd t)

theorem commentRest_cons {c : Char} {cs : Text}
    (h : commentEnd.isPrefixOf (c :: cs) = false) :
    commentRest (c :: cs) = c :: commentRest cs := by
  rw [commentRest, throughLength, if_neg (by simp [h]), List.take_succ_cons, commentRest]

theorem javadocRound_beyond (part : Nat) (s : Scan) (d : Char)
    (hpeek : s.peek = some d) (hd : isBeyondAscii d) :
    javadocRound (s, part) = .again (s.bump 1, part) := by
  have hstarts : s.startsWith ['*', '/'] = false :=
    Stands.startsWith_eq_false hpeek hd (by decide)
  simp [javadocRound, hpeek, hstarts, ne_of_beyond (d := '@') hd (by decide)]

/-- At a place where no comment ends, a round looks for a tag there. -/
theorem javadocRound_ascii {previous c : Char} {cs : Text} (part : Nat)
    (h : Stands s (before ++ [previous]) (c :: cs)) (hc : isBeyondAscii c = false)
    (hend : commentEnd.isPrefixOf (c :: cs) = false) :
    javadocRound (s, part) =
      if startsTag previous c cs then
        let tag := ((s.emitRange .javadoc part s.pos).bump 1).eatWhile isAsciiAlnum
        .again (tag.emit .javadocTag s.pos, tag.pos)
      else .again (s.bump 1, part) := by
  have hstarts : s.startsWith "*/".toList = false :=
    (h.startsWith_eq (by decide)).trans hend
  have htag : (c = '@' && atTagPosition s && (s.peekAt 1).any isAsciiLetter) =
      startsTag previous c cs := by
    rw [atTagPosition_eq h, h.peekAt_one_any tells_isAsciiLetter hc, startsTag,
      Bool.beq_eq_decide_eq]
  simp only [javadocRound, h.peek_ascii hc, hstarts, htag]
  simp

theorem splitTags_commentEnd (previous : Char) :
    splitTags previous commentEnd = (commentEnd, []) := by
  simp [commentEnd, splitTags, startsTag]

/-- A tag and what follows it, in what is left of a comment. -/
theorem splitTags_tag {previous : Char} {cs : Text} (h : startsTag previous '@' cs) :
    let w := cs.takeWhile isAsciiAlnum
    let rest := splitTags (w.getLastD '@') (commentRest (cs.dropWhile isAsciiAlnum))
    splitTags previous ('@' :: commentRest cs) =
      ([], ⟨.javadocTag, '@' :: w⟩ :: (javadocPart rest.1 ++ rest.2)) := by
  intro w rest
  have hw : ∀ c ∈ w, isAsciiAlnum c = true := List.all_eq_true.1 List.all_takeWhile
  have hstar : '*' ∉ w := fun hmem => absurd (hw '*' hmem) (by decide)
  have hsplit : w ++ cs.dropWhile isAsciiAlnum = cs := List.takeWhile_append_dropWhile
  have hbody : commentRest cs = w ++ commentRest (cs.dropWhile isAsciiAlnum) := by
    have hlength : throughLength commentEnd (w ++ cs.dropWhile isAsciiAlnum) =
        w.length + throughLength commentEnd (cs.dropWhile isAsciiAlnum) :=
      throughLength_append hstar _
    rw [hsplit] at hlength
    rw [commentRest, hlength, ← hsplit, List.take_length_add_append, hsplit, commentRest]
  have hhead : (commentRest (cs.dropWhile isAsciiAlnum)).head?.any isAsciiAlnum =
      false := by
    rw [commentRest, commentEnd, head?_take_throughLength, head?_any_dropWhile]
  have hrun : runLength isAsciiAlnum (commentRest cs) = w.length := by
    rw [hbody, runLength_append hw hhead]
  have hstart : startsTag previous '@' (commentRest cs) := by
    rw [startsTag, commentRest, commentEnd, head?_take_throughLength]
    exact h
  rw [splitTags, if_pos hstart]
  simp only [hrun]
  rw [hbody, List.take_left, List.drop_left]

def tagLexemes (pending cs : Text) : List Lexeme :=
  javadocPart pending ++ [⟨.javadocTag, '@' :: cs.takeWhile isAsciiAlnum⟩]

theorem source_tagLexemes (pending cs : Text) :
    source (tagLexemes pending cs) = pending ++ '@' :: cs.takeWhile isAsciiAlnum := by
  simp [tagLexemes]

/-- A round over a tag reads the part before it and the tag. -/
theorem javadocRound_tag {pending : Text} {previous : Char} {cs : Text}
    (h : Stands s before (pending ++ '@' :: cs))
    (hprevious : (before ++ pending).getLast? = some previous)
    (htag : startsTag previous '@' cs = true) :
    let t := s.read (tagLexemes pending cs)
    javadocRound (s.skip pending, s.pos) = .again (t, t.pos) := by
  intro t
  obtain ⟨init, hinit⟩ := List.getLast?_eq_some_iff.1 hprevious
  have hcursor : Stands (s.skip pending) (init ++ [previous]) ('@' :: cs) :=
    hinit ▸ h.skip
  have hpart : (s.skip pending).emitRange .javadoc s.pos (s.skip pending).pos =
      s.read (javadocPart pending) := emit_skip_javadoc s pending
  have hread : Stands (s.read (javadocPart pending)) (before ++ pending) ('@' :: cs) := by
    have hsource : Stands s before (source (javadocPart pending) ++ '@' :: cs) := by
      rwa [source_javadocPart]
    simpa using hsource.read
  have hname : ((s.read (javadocPart pending)).bump 1).eatWhile isAsciiAlnum =
      (s.read (javadocPart pending)).skip ('@' :: cs.takeWhile isAsciiAlnum) := by
    rw [hread.bump_eq (t := ['@']) (by decide),
      hread.skip_cons.eatWhile_eq tells_isAsciiAlnum, skip_skip, List.singleton_append]
  have hpos : (s.skip pending).pos = (s.read (javadocPart pending)).pos := by
    rw [skip_pos, read_pos, source_javadocPart]
  have hemit : ((s.read (javadocPart pending)).skip
      ('@' :: cs.takeWhile isAsciiAlnum)).emit .javadocTag (s.skip pending).pos = t := by
    rw [hpos, emit_skip (by decide) (List.cons_ne_nil _ _), ← read_append]
    rfl
  have hstop : ((s.read (javadocPart pending)).skip
      ('@' :: cs.takeWhile isAsciiAlnum)).pos = t.pos := by
    rw [skip_pos, ← hpos, skip_pos, read_pos, source_tagLexemes, byteLength_append,
      Nat.add_assoc]
  have hend : commentEnd.isPrefixOf ('@' :: cs) = false := by
    rw [commentEnd, List.isPrefixOf_cons_cons]
    rfl
  rw [javadocRound_ascii s.pos hcursor (by decide) hend, if_pos htag, hpart]
  simp only [hname, hemit, hstop]

/-- The rest of the scan of a javadoc comment, where the part that the cursor
stands in begins at an offset. -/
def scanJavadocFrom (part : Nat) (s : Scan) : Scan :=
  let state := Round.loop (fun state => state.1.left) javadocRound (s, part)
  state.1.emit .javadoc state.2

theorem scanJavadocFrom_nil {pending : Text} (h : Stands s before pending) :
    scanJavadocFrom s.pos (s.skip pending) = s.read (javadocPart pending) := by
  have hcursor : Stands (s.skip pending) (before ++ pending) [] :=
    Stands.skip (by rwa [List.append_nil])
  have hround : javadocRound (s.skip pending, s.pos) = .done (s.skip pending, s.pos) := by
    simp [javadocRound, hcursor.peek_nil]
  rw [scanJavadocFrom, Round.loop_done hround, emit_skip_javadoc]

theorem scanJavadocFrom_end {pending : Text}
    (h : Stands s before (pending ++ (commentEnd ++ after))) :
    scanJavadocFrom s.pos (s.skip pending) =
      s.read (javadocPart (pending ++ commentEnd)) := by
  have hcursor : Stands (s.skip pending) (before ++ pending) ('*' :: '/' :: after) :=
    h.skip
  have hstarts : (s.skip pending).startsWith ['*', '/'] = true :=
    hcursor.startsWith_eq (by decide)
  have hround : javadocRound (s.skip pending, s.pos) =
      .done ((s.skip pending).bump 2, s.pos) := by
    simp [javadocRound, hcursor.peek_ascii (show isBeyondAscii '*' = false by decide),
      hstarts]
  rw [scanJavadocFrom, Round.loop_done hround, h.skip.bump_eq (by decide), skip_skip,
    emit_skip_javadoc]

theorem scanJavadocFrom_char {pending : Text} {previous c : Char} {cs : Text}
    (h : Stands s before (pending ++ c :: cs))
    (hprevious : (before ++ pending).getLast? = some previous)
    (hend : commentEnd.isPrefixOf (c :: cs) = false)
    (htag : startsTag previous c cs = false) :
    scanJavadocFrom s.pos (s.skip pending) =
      scanJavadocFrom s.pos (s.skip (pending ++ [c])) := by
  obtain ⟨init, hinit⟩ := List.getLast?_eq_some_iff.1 hprevious
  have hcursor : Stands (s.skip pending) (init ++ [previous]) (c :: cs) := hinit ▸ h.skip
  have hloop : Round.loop (fun state => state.1.left) javadocRound
        (s.skip pending, s.pos) =
      Round.loop (fun state => state.1.left) javadocRound
        (s.skip (pending ++ [c]), s.pos) := by
    rw [← skip_skip]
    refine loop_skip (fun t => (t, s.pos)) (fun _ => rfl) hcursor ?_ ?_
    · intro _
      exact javadocRound_beyond s.pos
    · intro hc
      rw [javadocRound_ascii s.pos hcursor hc hend, htag]
      rfl
  rw [scanJavadocFrom, hloop, scanJavadocFrom]

theorem stands_tagLexemes {pending cs : Text}
    (h : Stands s before (pending ++ '@' :: cs)) :
    Stands s before (source (tagLexemes pending cs) ++ cs.dropWhile isAsciiAlnum) := by
  rw [source_tagLexemes, List.append_assoc, List.cons_append,
    List.takeWhile_append_dropWhile]
  exact h

theorem scanJavadocFrom_tag {pending : Text} {previous : Char} {cs : Text}
    (h : Stands s before (pending ++ '@' :: cs))
    (hprevious : (before ++ pending).getLast? = some previous)
    (htag : startsTag previous '@' cs = true) :
    scanJavadocFrom s.pos (s.skip pending) =
      scanJavadocFrom (s.read (tagLexemes pending cs)).pos
        (s.read (tagLexemes pending cs)) := by
  have hround := javadocRound_tag h hprevious htag
  have hleft : (s.read (tagLexemes pending cs)).left < (s.skip pending).left := by
    have hpositive := byteLength_pos (List.cons_ne_nil '@' (cs.takeWhile isAsciiAlnum))
    have hsize : byteLength ('@' :: cs) =
        byteLength ('@' :: cs.takeWhile isAsciiAlnum) +
          byteLength (cs.dropWhile isAsciiAlnum) := by
      rw [← byteLength_append, List.cons_append, List.takeWhile_append_dropWhile]
    rw [(stands_tagLexemes h).read.left_eq, h.skip.left_eq, hsize]
    exact Nat.lt_add_of_pos_left hpositive
  have hloop : Round.loop (fun state => state.1.left) javadocRound
        (s.skip pending, s.pos) =
      Round.loop (fun state => state.1.left) javadocRound
        (s.read (tagLexemes pending cs), (s.read (tagLexemes pending cs)).pos) :=
    Round.loop_again hround hleft
  rw [scanJavadocFrom, hloop, scanJavadocFrom]

/-- The loop over a javadoc comment reads what the splitting at tags makes of it.
The induction is over the text after the cursor. A step over a character adds it to
the pending text; a tag ends that text, and a new part begins behind the tag. -/
theorem scanJavadocFrom_eq {s : Scan} {before after pending : Text} {previous : Char}
    (h : Stands s before (pending ++ after))
    (hprevious : (before ++ pending).getLast? = some previous) :
    let rest := splitTags previous (commentRest after)
    scanJavadocFrom s.pos (s.skip pending) =
      s.read (javadocPart (pending ++ rest.1) ++ rest.2) := by
  intro rest
  cases after with
  | nil =>
      have hrest : rest = ([], []) := splitTags.eq_1 previous
      rw [List.append_nil] at h
      rw [scanJavadocFrom_nil h, hrest, List.append_nil, List.append_nil]
  | cons c cs =>
      cases hend : commentEnd.isPrefixOf (c :: cs) with
      | true =>
          obtain ⟨tail, htail⟩ := List.isPrefixOf_iff_prefix.1 hend
          have hrest : rest = (commentEnd, []) := by
            have hbody : commentRest (c :: cs) = commentEnd := by
              rw [commentRest, throughLength, if_pos hend, ← htail, List.take_left]
            rw [← splitTags_commentEnd previous, ← hbody]
          rw [← htail] at h
          rw [scanJavadocFrom_end h, hrest, List.append_nil]
      | false =>
          have hbody : commentRest (c :: cs) = c :: commentRest cs :=
            commentRest_cons hend
          have hhead : (commentRest cs).head? = cs.head? := head?_take_throughLength _ _ _
          cases htag : startsTag previous c cs with
          | true =>
              obtain rfl : c = '@' := by
                simp only [startsTag, Bool.and_eq_true, beq_iff_eq] at htag
                exact htag.1.1
              have hlast : (before ++ source (tagLexemes pending cs) ++ []).getLast? =
                  some ((cs.takeWhile isAsciiAlnum).getLastD '@') := by
                simp [source_tagLexemes, List.getLast?_append, List.getLast?_cons]
              have hlt : (cs.dropWhile isAsciiAlnum).length < ('@' :: cs).length :=
                Nat.lt_succ_of_le (List.dropWhile_sublist _).length_le
              have hread : Stands (s.read (tagLexemes pending cs))
                  (before ++ source (tagLexemes pending cs))
                  ([] ++ cs.dropWhile isAsciiAlnum) := (stands_tagLexemes h).read
              have ih := scanJavadocFrom_eq hread hlast
              have hrest := splitTags_tag htag
              rw [← hbody] at hrest
              rw [scanJavadocFrom_tag h hprevious htag]
              refine ih.trans ?_
              rw [show rest = _ from hrest, List.append_nil, ← read_append]
              simp [tagLexemes]
          | false =>
              have hstands : Stands s before ((pending ++ [c]) ++ cs) := by simpa using h
              have hlast : (before ++ (pending ++ [c])).getLast? = some c := by simp
              have ih := scanJavadocFrom_eq hstands hlast
              have hrest : rest = (c :: (splitTags c (commentRest cs)).1,
                  (splitTags c (commentRest cs)).2) := by
                have hno : ¬ startsTag previous c (commentRest cs) = true := by
                  rw [startsTag, hhead, ← startsTag, htag]
                  exact Bool.false_ne_true
                rw [show rest = splitTags previous (c :: commentRest cs) by rw [← hbody],
                  splitTags, if_neg hno]
              rw [scanJavadocFrom_char h hprevious hend htag, hrest]
              simpa using ih
  termination_by after.length

/-- The scan of a javadoc comment reads what its splitting makes of it. -/
theorem scanJavadoc_eq {cs : Text}
    (h : Stands s before ('/' :: '*' :: '*' :: cs)) :
    scanJavadoc s =
      s.read (splitJavadoc ⟨.javadoc, '/' :: '*' :: '*' :: commentRest cs⟩) := by
  have hstands : Stands s before (['/', '*', '*'] ++ cs) := h
  have hlast : (before ++ ['/', '*', '*']).getLast? = some '*' := by simp
  have hscan := scanJavadocFrom_eq hstands hlast
  have hbump : s.bump 3 = s.skip ['/', '*', '*'] := hstands.bump_eq (by decide)
  have hsplit : splitTags '/' ('/' :: '*' :: '*' :: commentRest cs) =
      ('/' :: '*' :: '*' :: (splitTags '*' (commentRest cs)).1,
        (splitTags '*' (commentRest cs)).2) := by
    simp [splitTags, startsTag]
  rw [scanJavadoc, hbump]
  refine hscan.trans ?_
  rw [splitJavadoc, if_pos rfl, hsplit]
  rfl

end Java

end SourceMarkup
