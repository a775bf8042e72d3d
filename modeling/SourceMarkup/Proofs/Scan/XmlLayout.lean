import SourceMarkup.Proofs.Lexeme.XmlLayout
import SourceMarkup.Proofs.Scan.JavaMeaning
import SourceMarkup.Proofs.Scan.Xml

/-!
# How the tokens of XML are laid out

The tokens of a source are those of its parts, and each part is, byte by byte, what its
kind says. A name may hold any byte of a character beyond ASCII, so no name ends inside a
character, and all else that tells a part is ASCII.
-/

namespace SourceMarkup

open Text Lexeme

namespace Lexeme

def bytes (lexeme : Lexeme) : Lexeme :=
  ⟨lexeme.kind, byteChars lexeme.text⟩

section Rows

variable {α β : Type} {f : α → β} {part : α → Text} {part' : β → Text}

theorem flatMap_map_bytes (hpart : ∀ a, part' (f a) = byteChars (part a)) (as : List α) :
    (as.map f).flatMap part' = byteChars (as.flatMap part) := by
  induction as with
  | nil => rfl
  | cons a as ih =>
      rw [List.map_cons, List.flatMap_cons, hpart, ih, List.flatMap_cons, byteChars_append]

/-- What the members of a row are by their characters, they are by their bytes. -/
theorem Each.bytes {P : α → Text → Prop} {Q : β → Text → Prop} {after : Text} {as : List α}
    (hpart : ∀ a, part' (f a) = byteChars (part a))
    (hstands : ∀ a rest, P a rest → Q (f a) (byteChars rest)) (h : Each part P after as) :
    Each part' Q (byteChars after) (as.map f) := by
  induction as with
  | nil => trivial
  | cons a as ih =>
      refine ⟨?_, ih h.2⟩
      rw [flatMap_map_bytes hpart, ← byteChars_append]
      exact hstands a _ h.1

end Rows

theorem source_map_bytes (ls : List Lexeme) : source (ls.map bytes) = byteChars (source ls) := by
  have htext : ∀ l : Lexeme, text (bytes l) = byteChars (text l) := fun _ => rfl
  exact flatMap_map_bytes htext ls

end Lexeme

namespace Xml

variable {text after : Text} {c : Char} {cs : Text}

/-! ### Parts by bytes -/

theorem tells_isSeparator : TellsAsciiOnly isSeparator :=
  tells_of_false fun c hc => by simp [isSeparator, isNameStart, hc]

theorem Delimited.bytes {opening : Text} {d : Char} {ds : Text} (hopening : isAscii opening)
    (hterminator : isAscii (d :: ds)) (h : Delimited opening (d :: ds) text after) :
    Delimited opening (d :: ds) (byteChars text) (byteChars after) := by
  obtain ⟨body, rfl, hbody⟩ := h
  refine ⟨byteChars body, ?_, hbody.bytes hterminator⟩
  rw [byteChars_append, byteChars_of_isAscii hopening]

theorem Entity.bytes (h : Entity text) : Entity (byteChars text) where
  body := by
    obtain ⟨body, rfl, hne, hparts⟩ := h.body
    refine ⟨byteChars body, ?_, ?_, tells_isEntityPart.forall_mem hparts⟩
    · have hclose : byteChars [';'] = [';'] := byteChars_of_isAscii (by decide)
      rw [byteChars_cons_of_ascii (by decide), byteChars_append, hclose]
    · rwa [Ne, byteChars_eq_iff (by decide)]

theorem Name.bytes (h : Name text after) : Name (byteChars text) (byteChars after) where
  start := by rw [tells_isNameStart.head?_any, h.start]
  inside := tells_isNamePart.forall_mem h.inside
  ending := by rw [tells_isNamePart.head?_any, h.ending]

theorem Value.bytes (h : Value text after) : Value (byteChars text) (byteChars after) := by
  obtain ⟨quote, body, close, hquote, rfl, hbody, hclose⟩ := h
  have hascii : isBeyondAscii quote = false := by rcases hquote with rfl | rfl <;> decide
  refine ⟨quote, byteChars body, byteChars close, hquote, ?_, ?_, ?_⟩
  · rw [byteChars_cons_of_ascii hascii, byteChars_append]
  · exact fun hmem => hbody (mem_of_mem_byteChars hascii hmem)
  · rcases hclose with rfl | ⟨rfl, rfl⟩
    · exact .inl (byteChars_of_isAscii (isAscii_cons_iff.2 ⟨hascii, rfl⟩))
    · exact .inr ⟨rfl, rfl⟩

theorem StandsAlone.bytes {lexeme : Lexeme} (h : StandsAlone lexeme after) :
    StandsAlone lexeme.bytes (byteChars after) := by
  obtain ⟨kind, text⟩ := lexeme
  cases kind
  case xmlComment => exact Delimited.bytes (by decide) (by decide) h
  case xmlCdata => exact Delimited.bytes (by decide) (by decide) h
  case xmlProlog =>
    rcases h with h | ⟨h, hcomment, hcdata⟩
    · exact .inl (h.bytes (by decide) (by decide))
    · refine .inr ⟨h.bytes (by decide) (by decide), ?_, ?_⟩
      · exact mt (prefix_byteChars_iff (by decide) text).1 hcomment
      · exact mt (prefix_byteChars_iff (by decide) text).1 hcdata
  case xmlEntity => exact Entity.bytes h
  all_goals exact h

theorem OpensTag.bytes {lexeme : Lexeme} (h : OpensTag lexeme after) :
    OpensTag lexeme.bytes (byteChars after) where
  kind := h.kind
  name := by
    obtain ⟨name, htext, hname⟩ := h.name
    refine ⟨byteChars name, ?_, hname.bytes⟩
    rcases htext with htext | htext
    · exact .inl (by rw [Lexeme.bytes, htext, byteChars_cons_of_ascii (by decide)])
    · exact .inr (by rw [Lexeme.bytes, htext, byteChars_cons_of_ascii (by decide),
        byteChars_cons_of_ascii (by decide)])

theorem StandsInTag.bytes {lexeme : Lexeme} (h : StandsInTag lexeme after) :
    StandsInTag lexeme.bytes (byteChars after) := by
  obtain ⟨kind, text⟩ := lexeme
  cases kind
  case xmlAttribute => exact Name.bytes h
  case xmlAttributeValue => exact Value.bytes h
  case plain => exact tells_isSeparator.forall_mem h
  all_goals exact h

theorem ClosesTag.bytes {lexeme : Lexeme} (h : ClosesTag lexeme) : ClosesTag lexeme.bytes where
  kind := h.kind
  text := by
    rcases h.text with htext | htext
    · exact .inl (by rw [Lexeme.bytes, htext, byteChars_of_isAscii (by decide)])
    · exact .inr (by rw [Lexeme.bytes, htext, byteChars_of_isAscii (by decide)])

theorem RestOfTag.bytes {inside : List Lexeme} {closing : Option Lexeme}
    (h : RestOfTag inside closing after) :
    RestOfTag (inside.map Lexeme.bytes) (closing.map Lexeme.bytes) (byteChars after) where
  stands := by
    have hclosing : (closing.map Lexeme.bytes).toList = closing.toList.map Lexeme.bytes := by
      cases closing <;> rfl
    rw [hclosing, source_map_bytes, ← byteChars_append]
    refine h.stands.bytes (fun _ => rfl) ?_
    exact fun _ _ => StandsInTag.bytes
  closes := by
    intro lexeme hlexeme
    obtain ⟨closed, hclosed, rfl⟩ := Option.map_eq_some_iff.1 hlexeme
    exact (h.closes closed hclosed).bytes
  ending := by
    intro hnone
    rcases h.ending (Option.map_eq_none_iff.1 hnone) with rfl | hmarkup
    · exact .inl rfl
    · exact .inr ((prefix_byteChars_iff (by decide) after).2 hmarkup)

theorem opensMarkup_cons (hc : c ≠ '/') (cs : Text) :
    opensMarkup (c :: cs) = (c == '!' || c == '?' || isNameStart c) := by
  unfold opensMarkup
  split
  · contradiction
  · next heq => exact absurd (List.cons.inj heq).1 hc
  · next heq => rw [(List.cons.inj heq).1]

theorem opensMarkup_of_beyond (hc : isBeyondAscii c) (cs : Text) :
    opensMarkup (c :: cs) = true := by
  rw [opensMarkup_cons (ne_of_beyond hc (by decide)), isNameStart, hc]
  simp

theorem opensMarkup_byteChars (t : Text) : opensMarkup (byteChars t) = opensMarkup t := by
  cases t with
  | nil => rfl
  | cons c cs =>
      cases hc : isBeyondAscii c with
      | true =>
          obtain ⟨d, ds, hds⟩ := charBytes_eq_cons c
          have hd : isBeyondAscii d :=
            isBeyondAscii_of_mem_charBytes hc (hds ▸ List.mem_cons_self)
          rw [byteChars_cons, hds, List.cons_append, opensMarkup_of_beyond hd,
            opensMarkup_of_beyond hc]
      | false =>
          rw [byteChars_cons_of_ascii hc]
          by_cases hslash : c = '/'
          · subst hslash
            exact tells_isNameStart.head?_any cs
          · rw [opensMarkup_cons hslash, opensMarkup_cons hslash]

theorem Bare.bytes (h : Bare text after) : Bare (byteChars text) (byteChars after) where
  markup := by
    intro front back hsplit
    obtain ⟨u, v, rfl, rfl, rfl⟩ := exists_of_byteChars_eq (by decide) hsplit
    rw [← byteChars_append, opensMarkup_byteChars]
    exact h.markup u v rfl
  entity := by
    intro front back hsplit body rest hbody hne
    obtain ⟨u, v, rfl, rfl, rfl⟩ := exists_of_byteChars_eq (by decide) hsplit
    rw [← byteChars_append] at hbody
    obtain ⟨word, others, hword, rfl, rfl⟩ := exists_of_byteChars_eq (by decide) hbody
    have hne : word ≠ [] := by
      rintro rfl
      exact hne rfl
    obtain ⟨c, hc, hpart⟩ := h.entity u v rfl word others hword hne
    by_contra hall
    have hparts : ∀ d ∈ byteChars word, isEntityPart d = true := by simpa using hall
    rw [tells_isEntityPart.forall_of_bytes hparts c hc] at hpart
    contradiction

namespace Part

def bytes : Part → Part
  | .bare text => .bare (byteChars text)
  | .alone lexeme => .alone lexeme.bytes
  | .tag opening inside closing =>
      .tag opening.bytes (inside.map Lexeme.bytes) (closing.map Lexeme.bytes)

theorem lexemes_bytes (part : Part) : part.bytes.lexemes = part.lexemes.map Lexeme.bytes := by
  cases part with
  | bare text => rfl
  | alone lexeme => rfl
  | tag opening inside closing => cases closing <;> simp [bytes, lexemes]

theorem text_bytes (part : Part) : part.bytes.text = byteChars part.text := by
  rw [text, lexemes_bytes, source_map_bytes, text]

theorem Stands.bytes {part : Part} (h : part.Stands after) :
    part.bytes.Stands (byteChars after) := by
  cases part with
  | bare text => exact Bare.bytes h
  | alone lexeme => exact StandsAlone.bytes h
  | tag opening inside closing =>
      obtain ⟨hopening, hrest⟩ := h
      have hinside : (inside.map Lexeme.bytes ++ (closing.map Lexeme.bytes).toList) =
          (inside ++ closing.toList).map Lexeme.bytes := by
        cases closing <;> simp
      refine ⟨?_, hrest.bytes⟩
      rw [hinside, source_map_bytes, ← byteChars_append]
      exact hopening.bytes

end Part

/-! ### Tokens -/

/-- The tokens of a source are laid out as comments, sections of character data,
declarations, entities and tags, with nothing left unread in the text between them. -/
theorem tokens_layout (source : Text) :
    ∃ parts : List Part, source = Lexeme.source (parts.flatMap Part.lexemes) ∧
      tokens source = tokensFrom 0 (parts.flatMap Part.lexemes) ∧
      Each Part.text Part.Stands [] (parts.map Part.bytes) := by
  obtain ⟨parts, hparts, hstands⟩ := exists_parts source
  refine ⟨parts, ?_, ?_, hstands.bytes Part.text_bytes fun _ _ => Part.Stands.bytes⟩
  · rw [← hparts, source_lexemesFrom]
  · rw [tokens_eq, lexemes, hparts]

end Xml

end SourceMarkup
