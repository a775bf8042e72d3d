import Mathlib.Data.List.Forall2
import SourceMarkup.Proofs.Lexeme.JavadocTags
import SourceMarkup.Proofs.Scan.JavaTokens

/-!
# The parts of javadoc comments

A javadoc comment has a scan of its own, which looks for the end of the comment and for tags
at once. `wholeTokens` is what a scan finds that reads a javadoc comment like any other one
and makes it one token. Both find the same tokens, but where one has a javadoc comment the
other has a row of its parts.
-/

namespace SourceMarkup

open Text Lexeme Scan

namespace Java

variable {s : Scan} {before after text : Text} {c : Char} {cs : Text}

/-! ### Comments as a whole -/

def startsJavadoc (s : Scan) : Bool :=
  s.startsWith "/**".toList && !s.startsWith "/**/".toList

/-- A round over a construct that makes one token of a javadoc comment. -/
def wholeRound (s : Scan) : Round Scan :=
  if startsJavadoc s then
    .again (((s.bump 2).eatThrough "*/".toList).emit .javadoc s.pos)
  else constructRound s

/-- The tokens of a source, with every javadoc comment as a whole. -/
def wholeTokens (source : Text) : List Token :=
  (Round.loop left wholeRound (start source)).tokens.toList

theorem startsJavadoc_eq (h : Stands s before after) :
    startsJavadoc s =
      (['/', '*', '*'].isPrefixOf after && !(['/', '*', '*', '/'].isPrefixOf after)) := by
  rw [startsJavadoc, h.startsWith_eq (by decide), h.startsWith_eq (by decide)]
  rfl

theorem startsJavadoc_comment (h : Stands s before ('/' :: '*' :: cs)) :
    startsJavadoc s = isJavadocBody cs := by
  rw [startsJavadoc_eq h, isJavadocBody_eq]
  rfl

/-- A javadoc comment starts where the first construct is one. -/
theorem startsJavadoc_iff (h : Stands s before (c :: cs)) :
    startsJavadoc s = true ↔ (construct c cs).1 = .javadoc := by
  constructor
  · intro hstarts
    have hprefix := hstarts
    rw [startsJavadoc_eq h, Bool.and_eq_true] at hprefix
    obtain ⟨rest, hrest⟩ := List.isPrefixOf_iff_prefix.1 hprefix.1
    obtain ⟨rfl, rfl⟩ := List.cons.inj hrest
    have hcomment : Stands s before ('/' :: '*' :: '*' :: rest) := h
    have hbody : isJavadocBody ('*' :: rest) = true := by
      rw [← startsJavadoc_comment hcomment, hstarts]
    have hconstruct := congrArg Prod.fst (construct_comment ('*' :: rest))
    exact hconstruct.trans (if_pos hbody)
  · intro hkind
    obtain ⟨ds, rfl, rfl, hbody, -⟩ := javadoc_cases (Prod.ext hkind rfl)
    rw [startsJavadoc_comment h, hbody]

theorem wholeRound_eq (h : Stands s before (c :: cs)) :
    wholeRound s = .again (s.read [firstConstruct c cs]) := by
  by_cases hkind : (construct c cs).1 = .javadoc
  · have hstarts := (startsJavadoc_iff h).2 hkind
    have hconstruct : construct c cs = (.javadoc, (construct c cs).2) := Prod.ext hkind rfl
    obtain ⟨ds, rfl, rfl, -, hn⟩ := javadoc_cases hconstruct
    rw [wholeRound, if_pos hstarts, firstConstruct, hkind, hn, List.take_succ_cons]
    exact congrArg Round.again (scanComment_eq (by decide) h)
  · have hstarts := mt (startsJavadoc_iff h).1 hkind
    rw [wholeRound, if_neg hstarts, constructRound_eq h, firstConstruct,
      splitJavadoc_of_ne hkind]

theorem wholeRound_nil (h : Stands s before []) : wholeRound s = .done s := by
  have hstarts : startsJavadoc s = false := startsJavadoc_eq h
  rw [wholeRound, if_neg (by simp [hstarts]), constructRound_nil h]

theorem wholeTokens_eq (source : Text) :
    wholeTokens source = tokensFrom 0 (constructs source) := by
  have hsource : ∀ l : Lexeme, Lexeme.source [l] = l.text := fun l => List.append_nil l.text
  have hsingle : (constructs source).flatMap (fun l => [l]) = constructs source := by simp
  rw [wholeTokens, constructsLoop_eq hsource wholeRound_nil wholeRound_eq
    (stands_start source), hsingle]
  simp [Scan.read, start]

/-! ### Splitting tokens -/

/-- Tokens that make up a javadoc comment, from its beginning to its end. -/
structure SplitsAtTags (comment : Token) (parts : List Token) : Prop where
  tiles : Token.Tiles comment.start comment.stop parts
  kinds : ∀ part ∈ parts, part.kind = .javadoc ∨ part.kind = .javadocTag
  head : parts.head?.map Token.kind = some .javadoc

/-- A javadoc comment is split into parts, and any other token is not. -/
def Splits (token : Token) (parts : List Token) : Prop :=
  if token.kind = .javadoc then SplitsAtTags token parts else parts = [token]

theorem tokensFrom_eq_spansFrom {ls : List Lexeme} (h : ∀ l ∈ ls, l.kind ≠ .plain)
    (offset : Nat) : tokensFrom offset ls = spansFrom offset ls := by
  induction ls generalizing offset with
  | nil => rfl
  | cons l ls ih =>
      obtain ⟨hl, hls⟩ := List.forall_mem_cons.1 h
      rw [tokensFrom, spansFrom, if_neg hl, ih hls]

/-- The tokens of the parts of a javadoc comment make up the token of the comment. -/
theorem splitsAtTags (offset : Nat) (t : Text) :
    SplitsAtTags ⟨.javadoc, offset, offset + byteLength ('/' :: t)⟩
      (tokensFrom offset (splitJavadoc ⟨.javadoc, '/' :: t⟩)) := by
  have hkinds : ∀ l ∈ splitJavadoc ⟨.javadoc, '/' :: t⟩,
      l.kind = .javadoc ∨ l.kind = .javadocTag := fun l hl => kind_of_mem_splitJavadoc hl rfl
  have hplain : ∀ l ∈ splitJavadoc ⟨.javadoc, '/' :: t⟩, l.kind ≠ .plain := by
    intro l hl
    rcases hkinds l hl with h | h <;> (rw [h]; decide)
  rw [tokensFrom_eq_spansFrom hplain]
  constructor
  · have htiles := tiles_spansFrom
      (solid_splitJavadoc (l := ⟨.javadoc, '/' :: t⟩) (List.cons_ne_nil '/' t)) offset
    rwa [source_splitJavadoc] at htiles
  · intro part hpart
    obtain ⟨front, l, back, hsplit, rfl⟩ := exists_split_of_mem_spansFrom hpart
    refine hkinds l ?_
    rw [hsplit]
    exact List.mem_append_right front List.mem_cons_self
  · rw [splitJavadoc_slash]
    rfl

/-- The tokens of split lexemes are those of the lexemes, split where they are javadoc
comments. -/
theorem exists_splits {ls : List Lexeme}
    (h : ∀ l ∈ ls, l.kind = .javadoc → ∃ t, l.text = '/' :: t) (offset : Nat) :
    ∃ parts, tokensFrom offset (ls.flatMap splitJavadoc) = parts.flatten ∧
      List.Forall₂ Splits (tokensFrom offset ls) parts := by
  induction ls generalizing offset with
  | nil => exact ⟨[], rfl, .nil⟩
  | cons l ls ih =>
      obtain ⟨hl, hls⟩ := List.forall_mem_cons.1 h
      obtain ⟨parts, hflatten, hsplits⟩ := ih hls (offset + l.text.byteLength)
      rw [List.flatMap_cons, tokensFrom_append, source_splitJavadoc, hflatten, tokensFrom]
      obtain ⟨kind, t⟩ := l
      by_cases hplain : kind = .plain
      · subst hplain
        rw [splitJavadoc_of_ne (by decide), if_pos rfl]
        exact ⟨parts, rfl, hsplits⟩
      rw [if_neg hplain]
      refine ⟨tokensFrom offset (splitJavadoc ⟨kind, t⟩) :: parts, rfl, .cons ?_ hsplits⟩
      by_cases hkind : kind = .javadoc
      · subst hkind
        obtain ⟨u, rfl⟩ := hl rfl
        rw [Splits, if_pos rfl]
        exact splitsAtTags offset u
      · rw [Splits, if_neg hkind, splitJavadoc_of_ne hkind, tokensFrom, if_neg hplain]
        rfl

theorem exists_slash_of_mem_constructs {t : Text} :
    ∀ l ∈ constructs t, l.kind = .javadoc → ∃ u, l.text = '/' :: u := by
  fun_induction constructs t with
  | case1 => exact fun l hl => absurd hl List.not_mem_nil
  | case2 c cs kind n hconstruct ih =>
      refine List.forall_mem_cons.2 ⟨fun hkind => ?_, ih⟩
      obtain rfl : kind = .javadoc := hkind
      obtain ⟨ds, rfl, -⟩ := javadoc_cases hconstruct
      exact ⟨cs.take n, rfl⟩

/-! ### Tags by bytes -/

theorem tells_admitsTag : TellsAsciiOnly admitsTag :=
  tells_of_false fun _ => admitsTag_of_beyond

theorem isBeyondAscii_of_isAsciiAlnum (h : isAsciiAlnum c = true) :
    isBeyondAscii c = false := by
  rw [Bool.eq_false_iff]
  intro hc
  rw [isAsciiAlnum_of_beyond hc] at h
  contradiction

theorem Tag.bytes (h : Tag before text after) :
    Tag (byteChars before) (byteChars text) (byteChars after) := by
  obtain ⟨c, cs, rfl, hletter, hname⟩ := h.name
  have hascii : isAscii ('@' :: c :: cs) = true := by
    have hc : isAsciiAlnum c = true := by rw [isAsciiAlnum, hletter, Bool.true_or]
    have hcs : ∀ d ∈ c :: cs, isAsciiAlnum d = true := List.forall_mem_cons.2 ⟨hc, hname⟩
    refine isAscii_cons_iff.2 ⟨by decide, ?_⟩
    rw [isAscii, List.all_eq_true]
    exact fun d hd => by rw [isBeyondAscii_of_isAsciiAlnum (hcs d hd)]; rfl
  rw [byteChars_of_isAscii hascii]
  exact ⟨by rw [tells_admitsTag.getLast?_any, h.opening], h.name,
    by rw [tells_isAsciiAlnum.head?_any, h.ending]⟩

theorem Tagless.bytes (h : Tagless before text after) :
    Tagless (byteChars before) (byteChars text) (byteChars after) := by
  intro front back hsplit hadmits
  obtain ⟨u, v, rfl, rfl, rfl⟩ := exists_of_byteChars_eq (by decide) hsplit
  rw [← byteChars_append, tells_admitsTag.getLast?_any] at hadmits
  rw [← byteChars_append, tells_isAsciiLetter.head?_any]
  exact h u v rfl hadmits

theorem TagsMean.bytes {kind : TokenKind} (h : TagsMean kind before text after) :
    TagsMean kind (byteChars before) (byteChars text) (byteChars after) := by
  cases kind
  case javadoc => exact Tagless.bytes h
  case javadocTag => exact Tag.bytes h
  all_goals trivial

/-! ### Tokens -/

/-- A javadoc comment is read to the same end as any other comment and split there into
parts that make it up; nothing else is read in another way. The tags among the parts are
whole, and no other part holds a tag. -/
theorem tokens_split (source : Text) :
    (∃ parts, tokens source = parts.flatten ∧
        List.Forall₂ Splits (wholeTokens source) parts) ∧
      ∀ token ∈ tokens source, ∃ before text after,
        byteChars source = before ++ (text ++ after) ∧ before.length = token.start ∧
          (before ++ text).length = token.stop ∧ TagsMean token.kind before text after := by
  constructor
  · rw [tokens_eq, wholeTokens_eq]
    exact exists_splits exists_slash_of_mem_constructs 0
  · intro token htoken
    obtain ⟨front, l, back, hsplit, hkind, hbytes, hstart, hstop⟩ :=
      exists_bytes_of_mem_spansFrom (mem_spansFrom_of_mem_tokens htoken)
    have hmean := lexemes_tags_mean [] source
    rw [hsplit] at hmean
    have hpart := hmean.of_append_cons
    rw [List.nil_append, List.append_nil] at hpart
    rw [source_lexemes] at hbytes
    exact ⟨_, _, _, hbytes, hstart, hstop, hkind ▸ hpart.bytes⟩

/-- The tag of a comment stands between two parts without one, and all three make up the
comment. -/
theorem tokens_split_tag :
    let source : Text := ['/', '*', '*', ' ', '@', 'a', '*', '/']
    tokens source = [⟨.javadoc, 0, 4⟩, ⟨.javadocTag, 4, 6⟩, ⟨.javadoc, 6, 8⟩] ∧
      wholeTokens source = [⟨.javadoc, 0, 8⟩] ∧
      SplitsAtTags ⟨.javadoc, 0, 8⟩ (tokens source) ∧
      Tag ['/', '*', '*', ' '] ['@', 'a'] ['*', '/'] := by
  intro source
  have hconstruct : construct '/' ['*', '*', ' ', '@', 'a', '*', '/'] = (.javadoc, 7) := by
    decide
  have hsplit : splitJavadoc ⟨.javadoc, source⟩ =
      [⟨.javadoc, ['/', '*', '*', ' ']⟩, ⟨.javadocTag, ['@', 'a']⟩, ⟨.javadoc, ['*', '/']⟩] := by
    simp [source, splitJavadoc, splitTags, startsTag, admitsTag, javadocPart, runLength,
      isAsciiLetter, isAsciiAlnum, isAsciiDigit]
  have htokens : tokens source =
      [⟨.javadoc, 0, 4⟩, ⟨.javadocTag, 4, 6⟩, ⟨.javadoc, 6, 8⟩] := by
    rw [tokens_eq, lexemes_cons, hconstruct, show List.drop _ _ = [] from rfl, lexemes_nil,
      List.append_nil]
    exact (congrArg (tokensFrom 0) hsplit).trans rfl
  have hwhole : wholeTokens source = [⟨.javadoc, 0, 8⟩] := by
    rw [wholeTokens_eq, constructs, hconstruct]
    simp only [List.drop_succ_cons, List.drop_nil, constructs]
    rfl
  obtain ⟨⟨parts, hflatten, hsplits⟩, hmeans⟩ := tokens_split source
  refine ⟨htokens, hwhole, ?_, ?_⟩
  · rw [hwhole] at hsplits
    cases hsplits with
    | @cons _ part _ _ hpart hnil =>
        cases hnil
        rw [List.flatten_singleton] at hflatten
        rwa [hflatten]
  · obtain ⟨before, text, after, hbytes, hstart, hstop, htag⟩ :=
      hmeans ⟨.javadocTag, 4, 6⟩ (htokens ▸ by decide)
    rw [byteChars_of_isAscii (by decide)] at hbytes
    have hlength : ['/', '*', '*', ' '].length = before.length := hstart.symm
    have hbytes : ['/', '*', '*', ' '] ++ ['@', 'a', '*', '/'] = before ++ (text ++ after) :=
      hbytes
    obtain ⟨rfl, hrest⟩ := List.append_inj hbytes hlength
    have hlength : ['@', 'a'].length = text.length := by
      rw [List.length_append] at hstop
      exact (Nat.add_left_cancel hstop).symm
    have hrest : ['@', 'a'] ++ ['*', '/'] = text ++ after := hrest
    obtain ⟨rfl, rfl⟩ := List.append_inj hrest hlength
    exact htag

end Java

end SourceMarkup
