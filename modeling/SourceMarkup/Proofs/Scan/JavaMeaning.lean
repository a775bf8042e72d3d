import SourceMarkup.Proofs.Lexeme.JavaMeaning
import SourceMarkup.Proofs.Scan.JavaTokens

/-!
# What the tokens of Java are

A token lies between two byte offsets, and a backslash passes a byte, not a character. So
what a token is has to be told of bytes. Each kind is told by ASCII characters, which are
read as themselves, and the bytes of all other characters are passed without notice: what
a part of a source is by its characters, it is by its bytes.
-/

namespace SourceMarkup

open Text Lexeme

namespace Java

variable {before text after part : Text} {c : Char} {cs : Text}

/-! ### Kinds by bytes -/

theorem EndOfLine.bytes (h : EndOfLine after) : EndOfLine (byteChars after) := by
  rcases h with rfl | hline
  · exact .inl rfl
  · exact .inr ((prefix_byteChars_iff (by decide) after).2 hline)

theorem EndsThrough.bytes {d : Char} {ds : Text} (hascii : isAscii (d :: ds))
    (h : EndsThrough (d :: ds) text after) :
    EndsThrough (d :: ds) (byteChars text) (byteChars after) where
  first := by
    intro front back hsplit
    obtain ⟨hd, hds⟩ := isAscii_cons_iff.1 hascii
    obtain ⟨u, v, rfl, rfl, hv⟩ := exists_of_byteChars_eq hd hsplit
    obtain ⟨w, rfl⟩ : ds <+: v :=
      (prefix_byteChars_iff hds v).1 ⟨back, hv.symm⟩
    have hw : w = [] := h.first u w rfl
    subst hw
    simpa [byteChars_of_isAscii hds] using hv
  ending := by
    rcases h.ending with ⟨front, rfl⟩ | rfl
    · exact .inl ⟨byteChars front, by rw [byteChars_append, byteChars_of_isAscii hascii]⟩
    · exact .inr rfl

theorem LineComment.bytes (h : LineComment text after) :
    LineComment (byteChars text) (byteChars after) where
  opening := (prefix_byteChars_iff (by decide) text).2 h.opening
  inside := fun hmem => h.inside (mem_of_mem_byteChars (by decide) hmem)
  ending := h.ending.bytes

theorem BlockComment.bytes (h : BlockComment text after) :
    BlockComment (byteChars text) (byteChars after) where
  body := by
    obtain ⟨body, rfl, hbody⟩ := h.body
    refine ⟨byteChars body, ?_, hbody.bytes (by decide)⟩
    rw [byteChars_cons_of_ascii (by decide), byteChars_cons_of_ascii (by decide)]
  opening := by
    intro hopening
    rw [h.opening ((prefix_byteChars_iff (by decide) text).1 hopening)]
    exact byteChars_of_isAscii (by decide)

/-- Ends that begin with an ASCII character and hold no others. -/
def AsciiEnds (ends : List Text) : Prop :=
  ∀ stop ∈ ends, stop.isAscii = true ∧ stop ≠ []

theorem AsciiEnds.not_prefix {ends : List Text} (h : AsciiEnds ends) (hc : isBeyondAscii c)
    (t : Text) : ∀ stop ∈ ends, ¬ stop <+: c :: t := by
  intro stop hstop hstarts
  obtain ⟨hascii, hne⟩ := h stop hstop
  cases stop with
  | nil => exact hne rfl
  | cons d ds =>
      obtain ⟨rfl, -⟩ := List.cons_prefix_cons.1 hstarts
      rw [(isAscii_cons_iff.1 hascii).1] at hc
      contradiction

theorem Passes.append_beyond {ends : List Text} (hends : AsciiEnds ends) {cs : Text}
    (hcs : ∀ c ∈ cs, isBeyondAscii c) (h : Passes ends part after) :
    Passes ends (cs ++ part) after := by
  induction cs with
  | nil => exact h
  | cons c cs ih =>
      obtain ⟨hc, hcs⟩ := List.forall_mem_cons.1 hcs
      exact .plain (ne_of_beyond hc (by decide)) (hends.not_prefix hc _) (ih hcs)

theorem Passes.bytes {ends : List Text} (hends : AsciiEnds ends)
    (h : Passes ends part after) : Passes ends (byteChars part) (byteChars after) := by
  induction h with
  | nil after => exact .nil _
  | escape c h ih =>
      -- A backslash passes the first byte of the character; the others are passed by
      -- themselves.
      rw [byteChars_cons_of_ascii (by decide), byteChars_cons]
      cases hc : isBeyondAscii c with
      | false =>
          rw [charBytes_of_ascii hc]
          exact .escape c ih
      | true =>
          obtain ⟨d, ds, hds⟩ := charBytes_eq_cons c
          rw [hds]
          refine .escape d (ih.append_beyond hends fun e he => ?_)
          exact isBeyondAscii_of_mem_charBytes hc (hds ▸ List.mem_cons_of_mem d he)
  | backslash => exact .backslash
  | @plain c part after hslash hend h ih =>
      rw [byteChars_cons]
      cases hc : isBeyondAscii c with
      | true =>
          exact ih.append_beyond hends fun d hd => isBeyondAscii_of_mem_charBytes hc hd
      | false =>
          rw [charBytes_of_ascii hc, List.singleton_append]
          refine .plain hslash (fun stop hstop hstarts => hend stop hstop ?_) ih
          rwa [← byteChars_append, ← byteChars_cons_of_ascii hc,
            prefix_byteChars_iff (hends stop hstop).1] at hstarts

theorem TextBlock.bytes (h : TextBlock text after) :
    TextBlock (byteChars text) (byteChars after) := by
  obtain ⟨part, close, rfl, hpart, hclose⟩ := h
  have hends : AsciiEnds [blockQuotes] := by
    unfold AsciiEnds
    decide
  have hbytes := hpart.bytes hends
  rw [byteChars_append] at hbytes
  refine ⟨byteChars part, byteChars close, ?_, hbytes, ?_⟩
  · rw [byteChars_append, byteChars_append, byteChars_of_isAscii (by decide)]
  · rcases hclose with rfl | ⟨rfl, rfl⟩
    · exact .inl (byteChars_of_isAscii (by decide))
    · exact .inr ⟨rfl, rfl⟩

theorem Quoted.bytes {quote : Char} (hquote : isBeyondAscii quote = false)
    (h : Quoted quote text after) : Quoted quote (byteChars text) (byteChars after) := by
  obtain ⟨part, close, rfl, hpart, hclose⟩ := h
  have hends : AsciiEnds [['\n'], [quote]] := by
    intro stop hstop
    rcases List.mem_pair.1 hstop with rfl | rfl
    · exact ⟨by decide, List.cons_ne_nil _ _⟩
    · exact ⟨isAscii_cons_iff.2 ⟨hquote, rfl⟩, List.cons_ne_nil _ _⟩
  have hbytes := hpart.bytes hends
  rw [byteChars_append] at hbytes
  refine ⟨byteChars part, byteChars close, ?_, hbytes, ?_⟩
  · rw [byteChars_cons_of_ascii hquote, byteChars_append]
  · rcases hclose with rfl | ⟨rfl, hend⟩
    · exact .inl (byteChars_of_isAscii (isAscii_cons_iff.2 ⟨hquote, rfl⟩))
    · exact .inr ⟨rfl, hend.bytes⟩

theorem isBeyondAscii_of_isNumberPart (h : isNumberPart c) : isBeyondAscii c = false := by
  rw [Bool.eq_false_iff]
  intro hc
  have hpart : isNumberPart c = false := by
    simp [isNumberPart, isAsciiAlnum_of_beyond hc, ne_of_beyond (d := '_') hc (by decide),
      ne_of_beyond (d := '.') hc (by decide)]
  rw [hpart] at h
  contradiction

theorem tells_isNumberPart : TellsAsciiOnly isNumberPart :=
  tells_of_false fun c hc => by
    by_contra h
    rw [isBeyondAscii_of_isNumberPart (by simpa using h)] at hc
    contradiction

theorem Number.bytes (h : Number text after) : Number (byteChars text) (byteChars after) := by
  have hascii : text.isAscii = true := by
    rw [isAscii, List.all_eq_true]
    intro c hc
    rcases h.inside c hc with hpart | rfl | rfl
    · rw [isBeyondAscii_of_isNumberPart hpart]
      rfl
    · decide
    · decide
  rw [byteChars_of_isAscii hascii]
  exact { h with ending := by rw [tells_isNumberPart.head?_any, h.ending] }

theorem Keyword.bytes (h : Keyword before text after) :
    Keyword (byteChars before) (byteChars text) (byteChars after) := by
  have hjoins : TellsAsciiOnly joinsWord :=
    tells_of_true fun c hc => by simp [joinsWord, isIdentifierPart, isIdentifierStart, hc]
  have hkeywords : ∀ word ∈ keywords, word.isAscii = true := by decide
  have hascii : text.isAscii = true := by
    rcases h.word with rfl | ⟨hword, -⟩
    · decide
    · exact hkeywords text hword
  rw [byteChars_of_isAscii hascii]
  exact ⟨by rw [hjoins.getLast?_any]; exact h.word,
    by rw [tells_isIdentifierPart.head?_any, h.ending]⟩

theorem AnnotationName.bytes (h : AnnotationName text after) :
    AnnotationName (byteChars text) (byteChars after) where
  name := by
    obtain ⟨name, rfl, hstart, hname, hne⟩ := h.name
    refine ⟨byteChars name, byteChars_cons_of_ascii (by decide) name, ?_, ?_, ?_⟩
    · rw [tells_isIdentifierStart.head?_any, hstart]
    · exact tells_isIdentifierPart.forall_mem hname
    · rwa [Ne, byteChars_eq_iff (by decide)]
  ending := by rw [tells_isIdentifierPart.head?_any, h.ending]

/-- What a part of a source is by its characters, it is by its bytes. -/
theorem Means.bytes {kind : TokenKind} (h : Means kind before text after) :
    Means kind (byteChars before) (byteChars text) (byteChars after) := by
  cases kind
  case lineComment => exact LineComment.bytes h
  case blockComment => exact BlockComment.bytes h
  case stringLiteral =>
    have hstarts := prefix_byteChars_iff (p := blockQuotes) (by decide) text
    exact ⟨fun hblock => (h.1 (hstarts.1 hblock)).bytes,
      fun hblock => (h.2 (mt hstarts.2 hblock)).bytes (by decide)⟩
  case charLiteral => exact Quoted.bytes (by decide) h
  case number => exact Number.bytes h
  case keyword => exact Keyword.bytes h
  case annotationName => exact AnnotationName.bytes h
  all_goals exact h

/-! ### Tokens -/

/-- Each token is, byte by byte, what its kind says, where it lies between the bytes
before it and the bytes after it. -/
theorem tokens_mean (source : Text) :
    ∀ token ∈ tokens source, ∃ before text after,
      byteChars source = before ++ (text ++ after) ∧ before.length = token.start ∧
        (before ++ text).length = token.stop ∧ Means token.kind before text after := by
  intro token htoken
  obtain ⟨front, l, back, hsplit, rfl⟩ :=
    exists_split_of_mem_spansFrom (mem_spansFrom_of_mem_tokens htoken)
  have hborders : Borders [] source := fun h => by contradiction
  have hmeans := lexemes_mean hborders hsplit
  refine ⟨byteChars (Lexeme.source front), byteChars l.text, byteChars (Lexeme.source back),
    ?_, ?_, ?_, hmeans.bytes⟩
  · rw [← byteChars_append, ← byteChars_append, ← source_lexemes source, hsplit,
      source_append, source_cons]
  · rw [length_byteChars, Nat.zero_add]
  · rw [← byteChars_append, length_byteChars, byteLength_append, Nat.zero_add]

/-- An escaped quote does not end a literal. -/
theorem tokens_mean_escaped :
    ⟨.stringLiteral, 0, 4⟩ ∈ tokens ['"', '\\', '"', '"'] ∧
      Quoted '"' ['"', '\\', '"', '"'] [] := by
  have hconstruct : construct '"' ['\\', '"', '"'] = (.stringLiteral, 3) := by decide
  have htoken : ⟨.stringLiteral, 0, 4⟩ ∈ tokens ['"', '\\', '"', '"'] := by
    rw [tokens_eq, lexemes_cons, hconstruct, splitJavadoc_of_ne (by decide)]
    exact List.mem_cons_self
  obtain ⟨before, text, after, hsplit, hstart, hstop, hmeans⟩ := tokens_mean _ _ htoken
  obtain rfl : before = [] := List.eq_nil_of_length_eq_zero hstart
  rw [byteChars_of_isAscii (by decide), List.nil_append] at hsplit
  have hlength : ['"', '\\', '"', '"'].length = text.length := hstop.symm
  obtain ⟨rfl, rfl⟩ := List.append_inj ((List.append_nil _).trans hsplit) hlength
  exact ⟨htoken, hmeans.2 (by decide)⟩

end Java

end SourceMarkup
