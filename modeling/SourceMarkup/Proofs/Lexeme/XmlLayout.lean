import SourceMarkup.Proofs.Lexeme.JavaMeaning
import SourceMarkup.Proofs.Lexeme.Xml

/-!
# How a source in XML is laid out

The lexer reads a flat row of lexemes in two modes. Seen from outside, the row is made of
parts: a construct that stands alone, a tag with all that is inside it, or bare text in
which nothing begins. `Part.Stands` says what a part is before the text that follows it.

Between the tokens of a tag there is no angle bracket. So the first one outside of its
values closes the tag, or it starts another part and the tag stays open; a tag is also
left open by the end of the source. That the lexer changes its modes just there is
`exists_tag`, for one tag, and from it `exists_parts`, for a source.
-/

namespace SourceMarkup

namespace Xml

open Lexeme

open Java (EndsThrough endsThrough_throughLength)

variable {after : Text} {c : Char} {cs : Text}

/-! ### Parts -/

/-- A construct from its opening through the first terminator after that, or to the end of
the source. -/
def Delimited (opening terminator text after : Text) : Prop :=
  ∃ body, text = opening ++ body ∧ EndsThrough terminator body after

structure Entity (text : Text) : Prop where
  body : ∃ body, text = '&' :: (body ++ [';']) ∧ body ≠ [] ∧ ∀ c ∈ body, isEntityPart c = true

structure Name (text after : Text) : Prop where
  start : text.head?.any isNameStart = true
  inside : ∀ c ∈ text, isNamePart c = true
  ending : after.head?.any isNamePart = false

/-- A value in quotes. Only the end of the source may stand for the second quote. -/
def Value (text after : Text) : Prop :=
  ∃ quote body close, (quote = '"' ∨ quote = '\'') ∧ text = quote :: (body ++ close) ∧
    quote ∉ body ∧ (close = [quote] ∨ close = [] ∧ after = [])

/-- Whether a character inside a tag neither belongs to a name or a value nor ends the
tag. -/
def isSeparator (c : Char) : Bool :=
  !isNameStart c && c != '"' && c != '\'' && c != '<' && c != '>'

/-- What stands alone. A declaration is opened by `<!` where neither a comment nor a
section of character data is. -/
def StandsAlone (lexeme : Lexeme) (after : Text) : Prop :=
  match lexeme.kind with
  | .xmlComment => Delimited "<!--".toList "-->".toList lexeme.text after
  | .xmlCdata => Delimited "<![CDATA[".toList "]]>".toList lexeme.text after
  | .xmlProlog =>
      Delimited "<?".toList "?>".toList lexeme.text after ∨
        Delimited "<!".toList ">".toList lexeme.text after ∧
          ¬ "<!--".toList <+: lexeme.text ∧ ¬ "<![CDATA[".toList <+: lexeme.text
  | .xmlEntity => Entity lexeme.text
  | _ => False

structure OpensTag (lexeme : Lexeme) (after : Text) : Prop where
  kind : lexeme.kind = .xmlTag
  name : ∃ name, (lexeme.text = '<' :: name ∨ lexeme.text = '<' :: '/' :: name) ∧
    Name name after

/-- What stands inside a tag. -/
def StandsInTag (lexeme : Lexeme) (after : Text) : Prop :=
  match lexeme.kind with
  | .xmlAttribute => Name lexeme.text after
  | .xmlAttributeValue => Value lexeme.text after
  | .plain => ∀ c ∈ lexeme.text, isSeparator c = true
  | _ => False

structure ClosesTag (lexeme : Lexeme) : Prop where
  kind : lexeme.kind = .xmlTag
  text : lexeme.text = ['>'] ∨ lexeme.text = ['/', '>']

/-- The rest of a tag after its name. Without a closing it ends before the next `<` or
with the source. -/
structure RestOfTag (inside : List Lexeme) (closing : Option Lexeme) (after : Text) : Prop where
  stands : Each Lexeme.text StandsInTag (source closing.toList ++ after) inside
  closes : ∀ lexeme ∈ closing, ClosesTag lexeme
  ending : closing = none → after = [] ∨ ['<'] <+: after

/-- Whether a text after `<` makes it the start of a construct. -/
def opensMarkup : Text → Bool
  | [] => false
  | '/' :: cs => cs.head?.any isNameStart
  | c :: _ => c == '!' || c == '?' || isNameStart c

/-- Text between tags in which nothing begins. -/
structure Bare (text after : Text) : Prop where
  markup : ∀ front back, text = front ++ '<' :: back → opensMarkup (back ++ after) = false
  entity : ∀ front back, text = front ++ '&' :: back →
    ∀ body rest, back ++ after = body ++ ';' :: rest → body ≠ [] →
      ∃ c ∈ body, isEntityPart c = false

inductive Part
  | bare (text : Text)
  | alone (lexeme : Lexeme)
  | tag (opening : Lexeme) (inside : List Lexeme) (closing : Option Lexeme)

namespace Part

def lexemes : Part → List Lexeme
  | .bare text => [⟨.plain, text⟩]
  | .alone lexeme => [lexeme]
  | .tag opening inside closing => opening :: (inside ++ closing.toList)

def text (part : Part) : Text :=
  source part.lexemes

/-- What a part is before the text that follows it. -/
def Stands (part : Part) (after : Text) : Prop :=
  match part with
  | .bare text => Bare text after
  | .alone lexeme => StandsAlone lexeme after
  | .tag opening inside closing =>
      OpensTag opening (source (inside ++ closing.toList) ++ after) ∧
        RestOfTag inside closing after

end Part

/-! ### Between tags -/

theorem delimited_of_opening {opening : Text} {d : Char} {ds : Text}
    (h : opening.isPrefixOf cs = true) :
    Delimited (c :: opening) (d :: ds) (c :: cs.take (delimitedLength opening (d :: ds) cs))
      (cs.drop (delimitedLength opening (d :: ds) cs)) := by
  obtain ⟨rest, rfl⟩ := List.isPrefixOf_iff_prefix.1 h
  refine ⟨rest.take (throughLength (d :: ds) rest), ?_, ?_⟩
  · rw [delimitedLength, List.drop_left, List.take_length_add_append]
    rfl
  · rw [delimitedLength, List.drop_left, ← List.drop_drop, List.drop_left]
    exact endsThrough_throughLength rest

theorem name_takeWhile (h : cs.head?.any isNameStart = true) :
    Name (cs.takeWhile isNamePart) (cs.dropWhile isNamePart) where
  start := by
    cases cs with
    | nil => contradiction
    | cons c cs =>
        rw [List.takeWhile_cons_of_pos (isNamePart_of_isNameStart h)]
        exact h
  inside := fun _ => List.mem_takeWhile_imp
  ending := head?_any_dropWhile isNamePart cs

theorem eq_of_cons_eq_append {body front back : Text} (hc : c ∉ body)
    (h : c :: body = front ++ c :: back) : front = [] ∧ back = body := by
  cases front with
  | nil => exact ⟨rfl, (List.cons.inj h).2.symm⟩
  | cons d ds =>
      have hbody : body = ds ++ c :: back := (List.cons.inj h).2
      exact absurd (hbody ▸ List.mem_append_cons_self) hc

theorem bare_markup (h : opensMarkup cs = false) : Bare ['<'] cs where
  markup := by
    intro front back hsplit
    obtain ⟨-, rfl⟩ := eq_of_cons_eq_append List.not_mem_nil hsplit
    exact h
  entity := by
    intro front back hsplit
    have hmem : '&' ∈ ['<'] := hsplit ▸ List.mem_append_cons_self
    simp at hmem

theorem bare_ampersand {body rest : Text} (hbody : ∀ c ∈ body, isEntityPart c = true)
    (hrest : rest.head?.any isEntityPart = false)
    (h : body ≠ [] → rest.head? ≠ some ';') : Bare ('&' :: body) rest where
  markup := by
    intro front back hsplit
    have hmem : '<' ∈ '&' :: body := hsplit ▸ List.mem_append_cons_self
    rcases List.mem_cons.1 hmem with heq | hmem
    · contradiction
    · exact absurd (hbody _ hmem) (by decide)
  entity := by
    intro front back hsplit word others hword hne
    obtain ⟨-, rfl⟩ := eq_of_cons_eq_append (fun hmem => absurd (hbody _ hmem) (by decide)) hsplit
    by_contra hall
    have hparts : ∀ c ∈ word, isEntityPart c = true := by simpa using hall
    -- Both runs end where the first character does that belongs to no reference.
    have hlength : back.length = word.length := by
      rw [← runLength_append hbody hrest, hword, runLength_append hparts (by simp; decide)]
    obtain ⟨rfl, rfl⟩ := List.append_inj hword hlength
    exact h hne rfl

theorem bare_other (hmarkup : c ≠ '<') (hentity : c ≠ '&') (after : Text) :
    Bare [c] after where
  markup := by
    intro front back hsplit
    have hmem : '<' ∈ [c] := hsplit ▸ List.mem_append_cons_self
    exact absurd (List.mem_singleton.1 hmem).symm hmarkup
  entity := by
    intro front back hsplit
    have hmem : '&' ∈ [c] := hsplit ▸ List.mem_append_cons_self
    exact absurd (List.mem_singleton.1 hmem).symm hentity

def Begins (c : Char) (cs : Text) : TokenKind × Nat × Mode → Prop
  | (kind, n, .content) =>
      StandsAlone ⟨kind, c :: cs.take n⟩ (cs.drop n) ∨
        kind = .plain ∧ Bare (c :: cs.take n) (cs.drop n)
  | (kind, n, .tag) => OpensTag ⟨kind, c :: cs.take n⟩ (cs.drop n)

theorem begins_tagName (hmark : ¬ ['!'] <+: cs) (hquestion : ¬ ['?'] <+: cs) :
    Begins '<' cs (tagNameStep cs) := by
  unfold tagNameStep
  split
  · next ds =>
      split
      · next hstart =>
          refine ⟨rfl, ds.takeWhile isNamePart, .inr ?_, ?_⟩
          · rw [List.take_succ_cons, take_runLength]
          · rw [List.drop_succ_cons, drop_runLength]
            exact name_takeWhile hstart
      · next hstart => exact .inr ⟨rfl, bare_markup (Bool.eq_false_iff.2 hstart)⟩
  · next hslash =>
      split
      · next hstart =>
          refine ⟨rfl, cs.takeWhile isNamePart, .inl ?_, ?_⟩
          · rw [take_runLength]
          · rw [drop_runLength]
            exact name_takeWhile hstart
      · next hstart =>
          have hopens : opensMarkup cs = false := by
            unfold opensMarkup
            split
            · rfl
            · next ds => exact absurd rfl (hslash ds)
            · next c ds _ =>
                have hne : '!' ≠ c ∧ '?' ≠ c := by simpa using And.intro hmark hquestion
                simpa [hne.1.symm, hne.2.symm] using hstart
          exact .inr ⟨rfl, bare_markup hopens⟩

theorem begins_markup (cs : Text) : Begins '<' cs (markupStep cs) := by
  unfold markupStep
  split
  · next h => exact .inl (delimited_of_opening h)
  split
  · next h => exact .inl (delimited_of_opening h)
  split
  · next h => exact .inl (.inl (delimited_of_opening h))
  split
  · next hcomment hcdata _ h =>
      have hsource : ∀ n, cs.take n <+: cs := fun n => List.take_prefix n cs
      refine .inl (.inr ⟨delimited_of_opening h, fun hopening => ?_, fun hopening => ?_⟩)
      · exact hcomment (List.isPrefixOf_iff_prefix.2
          ((List.cons_prefix_cons.1 hopening).2.trans (hsource _)))
      · exact hcdata (List.isPrefixOf_iff_prefix.2
          ((List.cons_prefix_cons.1 hopening).2.trans (hsource _)))
  · next hquestion hmark =>
      refine begins_tagName ?_ ?_
      · simpa using hmark
      · simpa using hquestion

theorem begins_entity (cs : Text) :
    Begins '&' cs ((entityStep cs).1, (entityStep cs).2, .content) := by
  have hbody : ∀ c ∈ cs.takeWhile isEntityPart, isEntityPart c = true :=
    fun _ => List.mem_takeWhile_imp
  rw [entityStep, drop_runLength]
  split
  · next h =>
      obtain ⟨hne, hend⟩ := h
      obtain ⟨rest, hrest⟩ := List.head?_eq_some_iff.1 hend
      refine .inl ⟨cs.takeWhile isEntityPart, ?_, ?_, hbody⟩
      · rw [take_runLength_succ, hrest]
        rfl
      · rwa [Ne, ← List.length_eq_zero_iff]
  · next h =>
      refine .inr ⟨rfl, ?_⟩
      rw [take_runLength, drop_runLength]
      refine bare_ampersand hbody (head?_any_dropWhile isEntityPart cs) fun hne hend => ?_
      exact h ⟨List.length_eq_zero_iff.not.2 hne, hend⟩

theorem begins_contentStep (c : Char) (cs : Text) : Begins c cs (contentStep c cs) := by
  unfold contentStep
  split
  · next h => exact h ▸ begins_markup cs
  split
  · next h => exact h ▸ begins_entity cs
  · next hmarkup hentity => exact .inr ⟨rfl, bare_other hmarkup hentity cs⟩

/-! ### Inside a tag -/

theorem value_of_quote (hquote : c = '"' ∨ c = '\'') (cs : Text) :
    Value (c :: cs.take (throughLength [c] cs)) (cs.drop (throughLength [c] cs)) := by
  have hbody : c ∉ cs.takeWhile (· != c) := by
    intro hmem
    simpa using List.mem_takeWhile_imp hmem
  refine ⟨c, cs.takeWhile (· != c), (cs.dropWhile (· != c)).take 1, hquote, ?_, hbody, ?_⟩
  · rw [take_quotedLength]
  have hrest : cs.drop (throughLength [c] cs) = (cs.dropWhile (· != c)).drop 1 := by
    have hsplit : cs.take (throughLength [c] cs) ++ cs.drop (throughLength [c] cs) =
        cs.take (throughLength [c] cs) ++ (cs.dropWhile (· != c)).drop 1 := by
      rw [List.take_append_drop, take_quotedLength, List.append_assoc, List.take_append_drop,
        List.takeWhile_append_dropWhile]
    exact List.append_cancel_left hsplit
  rw [hrest]
  cases hdrop : cs.dropWhile (· != c) with
  | nil => exact .inr ⟨rfl, rfl⟩
  | cons d ds =>
      have hd : d = c := by
        have := List.head?_dropWhile_not (· != c) cs
        simpa [hdrop] using this
      exact .inl (by rw [hd]; rfl)

/-- What a step in a tag reads where no other part begins, by the mode after it. -/
def Continues (c : Char) (cs : Text) : TokenKind × Nat × Mode → Prop
  | (kind, n, .content) => ClosesTag ⟨kind, c :: cs.take n⟩
  | (kind, n, .tag) => StandsInTag ⟨kind, c :: cs.take n⟩ (cs.drop n)

theorem continues_tagStep (hc : c ≠ '<') (cs : Text) : Continues c cs (tagStep c cs) := by
  unfold tagStep
  split
  · next h => exact ⟨rfl, .inl (by rw [h]; rfl)⟩
  split
  · next h =>
      obtain ⟨rfl, hend⟩ := h
      obtain ⟨ds, rfl⟩ := List.head?_eq_some_iff.1 hend
      exact ⟨rfl, .inr rfl⟩
  split
  · next h => exact value_of_quote h cs
  split
  · next h =>
      have hname : Name ((c :: cs).takeWhile isNamePart) ((c :: cs).dropWhile isNamePart) :=
        name_takeWhile h
      rw [List.takeWhile_cons_of_pos (isNamePart_of_isNameStart h),
        List.dropWhile_cons_of_pos (isNamePart_of_isNameStart h)] at hname
      rw [Continues, take_runLength, drop_runLength]
      exact hname
  · next hclose _ hquote hname =>
      have hseparator : isSeparator c = true := by
        rw [not_or] at hquote
        simp [isSeparator, hname, hquote, hc, hclose]
      exact fun d hd => List.mem_singleton.1 hd ▸ hseparator

/-! ### A whole source -/

theorem RestOfTag.cons {lexeme : Lexeme} {inside : List Lexeme} {closing : Option Lexeme}
    (h : StandsInTag lexeme (source (inside ++ closing.toList) ++ after))
    (hrest : RestOfTag inside closing after) : RestOfTag (lexeme :: inside) closing after where
  stands := by
    rw [source_append, List.append_assoc] at h
    exact ⟨h, hrest.stands⟩
  closes := hrest.closes
  ending := hrest.ending

/-- In a tag the lexer reads what stands there, up to the closing or to the place where
the tag is left open. The induction is over the text: a `<` ends the tag without being
read, and at any other character one lexeme is. -/
theorem exists_tag (t : Text) :
    ∃ inside closing rest, t = source (inside ++ closing.toList) ++ rest ∧
      lexemesFrom .tag t = inside ++ closing.toList ++ lexemesFrom .content rest ∧
      RestOfTag inside closing rest := by
  cases t with
  | nil =>
      refine ⟨[], none, [], rfl, ?_, trivial, by simp, fun _ => .inl rfl⟩
      rw [lexemesFrom_nil, lexemesFrom_nil]
      rfl
  | cons c cs =>
      by_cases hc : c = '<'
      · subst hc
        refine ⟨[], none, '<' :: cs, rfl, ?_, trivial, by simp, fun _ => .inr ⟨cs, rfl⟩⟩
        rw [lexemesFrom_cons, lexemesFrom_cons]
        rfl
      rcases hstep : tagStep c cs with ⟨kind, n, mode⟩
      have hreads : Continues c cs (kind, n, mode) := hstep ▸ continues_tagStep hc cs
      have hlexemes : lexemesFrom .tag (c :: cs) =
          ⟨kind, c :: cs.take n⟩ :: lexemesFrom mode (cs.drop n) := by
        rw [lexemesFrom_cons, firstLexeme, step, hstep]
      have htext : c :: cs = (c :: cs.take n) ++ cs.drop n := by simp
      cases mode with
      | content =>
          refine ⟨[], some ⟨kind, c :: cs.take n⟩, cs.drop n, ?_, hlexemes, trivial, ?_, ?_⟩
          · simp
          · intro lexeme hlexeme
            obtain rfl := Option.mem_some.1 hlexeme
            exact hreads
          · intro hnone
            contradiction
      | tag =>
          have hlt : (cs.drop n).length < (c :: cs).length := by
            rw [List.length_drop, List.length_cons]
            omega
          obtain ⟨inside, closing, rest, hrest, hinside, htag⟩ := exists_tag (cs.drop n)
          refine ⟨⟨kind, c :: cs.take n⟩ :: inside, closing, rest, ?_, ?_, htag.cons ?_⟩
          · rw [List.cons_append, source_cons, List.append_assoc, ← hrest]
            exact htext
          · rw [hlexemes, hinside]
            rfl
          · rw [← hrest]
            exact hreads
  termination_by t.length

theorem Part.source_flatMap (parts : List Part) :
    source (parts.flatMap Part.lexemes) = parts.flatMap Part.text := by
  induction parts with
  | nil => rfl
  | cons part parts ih =>
      rw [List.flatMap_cons, source_append, ih, List.flatMap_cons, Part.text]

/-- Between tags the lexer reads one part, and is between tags again. -/
theorem exists_part (c : Char) (cs : Text) :
    ∃ (part : Part) (rest : Text), rest.length < (c :: cs).length ∧
      lexemesFrom .content (c :: cs) = part.lexemes ++ lexemesFrom .content rest ∧
      part.Stands rest := by
  rcases hstep : contentStep c cs with ⟨kind, n, mode⟩
  have hbegins : Begins c cs (kind, n, mode) := hstep ▸ begins_contentStep c cs
  have hlexemes : lexemesFrom .content (c :: cs) =
      ⟨kind, c :: cs.take n⟩ :: lexemesFrom mode (cs.drop n) := by
    rw [lexemesFrom_cons, firstLexeme, step, hstep]
  have hlt : (cs.drop n).length < (c :: cs).length := by
    rw [List.length_drop, List.length_cons]
    omega
  cases mode with
  | content =>
      rcases hbegins with halone | ⟨rfl, hbare⟩
      · exact ⟨.alone ⟨kind, c :: cs.take n⟩, cs.drop n, hlt, hlexemes, halone⟩
      · exact ⟨.bare (c :: cs.take n), cs.drop n, hlt, hlexemes, hbare⟩
  | tag =>
      obtain ⟨inside, closing, rest, hsplit, hinside, htag⟩ := exists_tag (cs.drop n)
      refine ⟨.tag ⟨kind, c :: cs.take n⟩ inside closing, rest, ?_, ?_, ?_, htag⟩
      · rw [hsplit, List.length_append] at hlt
        omega
      · rw [hlexemes, hinside]
        rfl
      · rw [← hsplit]
        exact hbegins

/-- The lexer reads a source part by part. -/
theorem exists_parts (t : Text) :
    ∃ parts : List Part, lexemesFrom .content t = parts.flatMap Part.lexemes ∧
      Each Part.text Part.Stands [] parts := by
  cases t with
  | nil => exact ⟨[], lexemesFrom_nil _, trivial⟩
  | cons c cs =>
      obtain ⟨part, rest, hlt, hpart, hstands⟩ := exists_part c cs
      obtain ⟨parts, hparts, heach⟩ := exists_parts rest
      have hrest : parts.flatMap Part.text = rest := by
        rw [← Part.source_flatMap, ← hparts, source_lexemesFrom]
      refine ⟨part :: parts, ?_, ?_, heach⟩
      · rw [hpart, hparts]
        rfl
      · rw [hrest, List.append_nil]
        exact hstands
  termination_by t.length
  decreasing_by exact hlt

end Xml

end SourceMarkup
